import Mathlib.Algebra.Ring.Nat
import TreeStyle.Number.Numeral
import TreeStyle.Number.Single

/-!
This module contains the proof that clamping takes a single precision float between its bounds,
unless it is not a number. Among the texts of numbers, only a word denotes such a float.
-/

namespace TreeStyle

namespace Single

open Float.Model (Format UnpackedFloat)

section Packing

open Float.Model.UnpackedFloat

theorem isNaN_unpack_iff {format : Format} (bits : BitVec format.numBits)
    : (unpack format bits).isNaN = true
        ↔ unpackExponent bits = -1#_ ∧ unpackMantissa bits ≠ 0#_ := by
  unfold unpack
  dsimp only
  by_cases hexponent : unpackExponent bits = -1#_
  . rw [if_pos hexponent]
    by_cases hmantissa : unpackMantissa bits = 0#_
    . rw [if_pos hmantissa]
      exact iff_of_false Bool.false_ne_true fun h => h.2 hmantissa
    . rw [if_neg hmantissa]
      exact iff_of_true rfl ⟨hexponent, hmantissa⟩
  . rw [if_neg hexponent]
    apply iff_of_false ?_ fun h => hexponent h.1
    by_cases hzero : unpackExponent bits = 0#_
    . rw [if_pos hzero]
      by_cases hmantissa : unpackMantissa bits = 0#_
      . rw [dif_pos hmantissa]
        exact Bool.false_ne_true
      . rw [dif_neg hmantissa]
        exact Bool.false_ne_true
    . rw [if_neg hzero]
      exact Bool.false_ne_true

theorem ofNat_ne_neg_one {w n : Nat} (h : ¬ 2 ^ w ≤ n + 1)
    : BitVec.ofNat w n ≠ -1#w := by
  intro hones
  have := congrArg BitVec.toNat hones
  rw [BitVec.neg_one_eq_allOnes, BitVec.toNat_allOnes, BitVec.toNat_ofNat,
    Nat.mod_eq_of_lt (by omega)] at this
  omega

theorem isNaN_unpack_pack (u : UnpackedFloat)
    : (unpack Format.binary32 (pack Format.binary32 u)).isNaN = u.isNaN := by
  rw [Bool.eq_iff_iff, isNaN_unpack_iff]
  cases u with
  | notANumber => decide
  | infinity s => cases s <;> decide
  | zero s => cases s <;> decide
  | finite s m e hm =>
    apply iff_of_false ?_ Bool.false_ne_true
    unfold pack packedInfinity
    dsimp only
    split
    . simp
    . next hexponent =>
      split
      . -- An exponent of ones would have been packed as infinity.
        intro h
        rw [unpackExponent_packComponents] at h
        apply absurd h.1 (ofNat_ne_neg_one hexponent)
      . simp

theorem isNaN_ofModel_pack (u : UnpackedFloat)
    : (Float32.ofModel (.pack u)).isNaN = u.isNaN :=
  isNaN_unpack_pack u

theorem isNaN_ite {c : Prop} [Decidable c] {u v : UnpackedFloat} (hu : u.isNaN = false)
    (hv : v.isNaN = false) : (if c then u else v).isNaN = false := by
  split
  . exact hu
  . exact hv

theorem isNaN_dite {c : Prop} [Decidable c] {u : c → UnpackedFloat} {v : ¬ c → UnpackedFloat}
    (hu : ∀ h, (u h).isNaN = false) (hv : ∀ h, (v h).isNaN = false)
    : (if h : c then u h else v h).isNaN = false := by
  split
  . apply hu
  . apply hv

theorem isNaN_roundWithAccuracy (format : Format) (sign : Sign) (mantissa : Nat) (exponent : Int)
    (accuracy : Accuracy)
    : (roundWithAccuracy format sign mantissa exponent accuracy).isNaN = false := by
  unfold roundWithAccuracy
  exact isNaN_dite (fun _ => rfl) (fun _ => rfl)

theorem isNaN_normalize (format : Format) (mantissa exponent : Int) (zeroSign : Sign)
    : (UnpackedFloat.normalize format mantissa exponent zeroSign).isNaN = false := by
  unfold UnpackedFloat.normalize
  split
  . apply isNaN_roundWithAccuracy
  . rfl
  . apply isNaN_roundWithAccuracy

theorem isNaN_unpackedOfScientific (format : Format) (digits : Nat) (exponent : Int)
    : (UnpackedFloat.ofScientific format digits exponent).isNaN = false := by
  unfold UnpackedFloat.ofScientific
  apply isNaN_dite (fun _ => rfl)
  intro hdigits
  apply isNaN_ite rfl
  apply isNaN_ite rfl
  apply isNaN_ite
  . apply isNaN_roundWithAccuracy
  . apply isNaN_roundWithAccuracy

end Packing

section Arithmetic

variable {x y : Float32}

theorem isNaN_ofUInt64 (n : UInt64)
    : n.toFloat32.isNaN = false := by
  unfold UInt64.toFloat32 Float32.Model.ofUInt64
  rw [isNaN_ofModel_pack]
  apply isNaN_normalize

theorem isNaN_neg (x : Float32)
    : (-x).isNaN = x.isNaN := by
  change (Float32.ofModel (.pack x.toModel.unpack.neg)).isNaN = x.toModel.unpack.isNaN
  rw [isNaN_ofModel_pack]
  cases x.toModel.unpack <;> rfl

theorem exists_unpack_eq_finite (hfinite : x.isFinite = true) (hzero : (x == 0.0) = false)
    : ∃ s m e hm, x.toModel.unpack = .finite s m e hm := by
  change x.toModel.unpack.isFinite = true at hfinite
  change x.toModel.unpack.beq (.zero .positive) = false at hzero
  cases hx : x.toModel.unpack with
  | finite s m e hm => exact ⟨s, m, e, hm, rfl⟩
  | zero s =>
    rw [hx] at hzero
    cases hzero
  | _ =>
    rw [hx] at hfinite
    cases hfinite

theorem isNaN_mul (hfinite : y.isFinite = true) (hzero : (y == 0.0) = false)
    : (x * y).isNaN = x.isNaN := by
  rcases exists_unpack_eq_finite hfinite hzero with ⟨s, m, e, hm, hy⟩
  change (Float32.ofModel (.pack (.mul _ x.toModel.unpack y.toModel.unpack))).isNaN
    = x.toModel.unpack.isNaN
  rw [isNaN_ofModel_pack, hy]
  cases x.toModel.unpack with
  | finite => apply isNaN_roundWithAccuracy
  | _ => rfl

theorem isNaN_div (hfinite : y.isFinite = true) (hzero : (y == 0.0) = false)
    : (x / y).isNaN = x.isNaN := by
  rcases exists_unpack_eq_finite hfinite hzero with ⟨s, m, e, hm, hy⟩
  change (Float32.ofModel (.pack (.div _ x.toModel.unpack y.toModel.unpack))).isNaN
    = x.toModel.unpack.isNaN
  rw [isNaN_ofModel_pack, hy]
  cases x.toModel.unpack with
  | finite => apply isNaN_roundWithAccuracy
  | _ => rfl

theorem isFinite_of_mem_powersOfTen
    : ∀ power ∈ Float32.exactlyRepresentablePowersOfTen,
        power.isFinite = true ∧ (power == 0.0) = false := by
  decide

theorem isNaN_ofScientific (digits : Nat) (negative : Bool) (exponent : Nat)
    : (Float32.ofScientific digits negative exponent).isNaN = false := by
  unfold Float32.ofScientific
  split
  . next h =>
    have hpower := isFinite_of_mem_powersOfTen _
      (Array.getElem_mem (Nat.lt_succ_of_le h.2))
    dsimp only
    split
    . exact (isNaN_div hpower.1 hpower.2).trans (isNaN_ofUInt64 _)
    . exact (isNaN_mul hpower.1 hpower.2).trans (isNaN_ofUInt64 _)
  . dsimp only
    unfold Float32.Model.ofScientific
    rw [isNaN_ofModel_pack]
    apply isNaN_unpackedOfScientific

end Arithmetic

section Order

variable {low high x y : Float32}

theorem swap_then_compare (e e' : Int) (m m' : Nat)
    : ((compare e e').then (compare m m')).swap = (compare e' e).then (compare m' m) := by
  rw [Ordering.swap_then, Int.compare_swap, Nat.compare_swap]

theorem map_swap_unpackedCompare (u v : UnpackedFloat)
    : (u.compare v).map Ordering.swap = v.compare u := by
  cases u with
  | notANumber => cases v <;> rfl
  | infinity s =>
    cases v with
    | infinity t => cases s <;> cases t <;> rfl
    | _ => cases s <;> rfl
  | zero s =>
    cases v with
    | infinity t => cases t <;> rfl
    | finite t => cases t <;> rfl
    | _ => rfl
  | finite s m e hm =>
    cases v with
    | notANumber => rfl
    | infinity t => cases t <;> rfl
    | zero t => cases s <;> rfl
    | finite t =>
      cases s with
      | negative =>
        cases t with
        | negative => exact congrArg (fun order => some order.swap) (swap_then_compare ..)
        | positive => rfl
      | positive =>
        cases t with
        | negative => rfl
        | positive => exact congrArg some (swap_then_compare ..)

theorem isNone_unpackedCompare (u v : UnpackedFloat)
    : (u.compare v).isNone = (u.isNaN || v.isNaN) := by
  cases u with
  | notANumber => cases v <;> rfl
  | infinity s =>
    cases v with
    | infinity t => cases s <;> cases t <;> rfl
    | _ => cases s <;> rfl
  | zero s =>
    cases v with
    | infinity t => cases t <;> rfl
    | finite t => cases t <;> rfl
    | _ => rfl
  | finite s m e hm =>
    cases v with
    | infinity t => cases t <;> rfl
    | finite t => cases s <;> cases t <;> rfl
    | zero t => cases s <;> rfl
    | notANumber => rfl

theorem map_swap_compare (x y : Float32)
    : (x.toModel.compare y.toModel).map Ordering.swap = y.toModel.compare x.toModel :=
  map_swap_unpackedCompare _ _

theorem compare_eq_none_iff
    : x.toModel.compare y.toModel = none ↔ x.isNaN = true ∨ y.isNaN = true := by
  rw [← Option.isNone_iff_eq_none, ← Bool.or_eq_true]
  exact Bool.eq_iff_iff.1 (isNone_unpackedCompare _ _)

theorem lt_iff
    : x < y ↔ x.toModel.compare y.toModel = some .lt := by
  change decide ((x.toModel.compare y.toModel == some .lt) = true) = true ↔ _
  rw [decide_eq_true_eq, beq_iff_eq]

theorem le_iff
    : x ≤ y ↔ (x.toModel.compare y.toModel).any Ordering.isLE = true := by
  change decide ((x.toModel.compare y.toModel).any Ordering.isLE = true) = true ↔ _
  rw [decide_eq_true_eq]

theorem not_lt_of_isNaN (h : x.isNaN = true ∨ y.isNaN = true)
    : ¬ x < y := by
  rw [lt_iff, compare_eq_none_iff.2 h]
  intro h
  cases h

theorem isNaN_of_le (h : x ≤ y)
    : x.isNaN = false ∧ y.isNaN = false := by
  rw [le_iff] at h
  rw [← Bool.or_eq_false_iff, Bool.eq_false_iff]
  intro hnan
  rw [compare_eq_none_iff.2 (Bool.or_eq_true _ _ ▸ hnan)] at h
  cases h

theorem le_of_not_lt (hx : x.isNaN = false) (hy : y.isNaN = false) (h : ¬ x < y)
    : y ≤ x := by
  rw [lt_iff] at h
  rw [le_iff, ← map_swap_compare]
  cases hcompare : x.toModel.compare y.toModel with
  | none =>
    rcases compare_eq_none_iff.1 hcompare with hnan | hnan
    . rw [hx] at hnan
      cases hnan
    . rw [hy] at hnan
      cases hnan
  | some order =>
    rw [hcompare] at h
    cases order with
    | lt => apply absurd rfl h
    | eq => rfl
    | gt => rfl

theorem le_refl (hx : x.isNaN = false)
    : x ≤ x := by
  apply le_of_not_lt hx hx
  rw [lt_iff]
  intro hlt
  have hswap := map_swap_compare x x
  rw [hlt] at hswap
  cases hswap

theorem clamp_of_isNaN (hx : x.isNaN = true)
    : clamp low high x = x := by
  unfold clamp
  rw [if_neg (not_lt_of_isNaN (.inl hx))]
  dsimp only
  rw [if_neg (not_lt_of_isNaN (.inr hx))]

theorem clamp_bounds (hbounds : low ≤ high) (hx : x.isNaN = false)
    : low ≤ clamp low high x ∧ clamp low high x ≤ high := by
  have hnan := isNaN_of_le hbounds
  unfold clamp
  dsimp only
  split
  . split
    . exact ⟨hbounds, le_refl hnan.2⟩
    . exact ⟨le_refl hnan.1, hbounds⟩
  . next hlow =>
    split
    . exact ⟨hbounds, le_refl hnan.2⟩
    . next hhigh => exact ⟨le_of_not_lt hx hnan.1 hlow, le_of_not_lt hnan.2 hx hhigh⟩

theorem isNaN_clamp (hbounds : low ≤ high)
    : (clamp low high x).isNaN = x.isNaN := by
  cases hx : x.isNaN with
  | true => rw [clamp_of_isNaN hx, hx]
  | false => apply (isNaN_of_le (clamp_bounds hbounds hx).1).2

end Order

end Single

namespace Numeral

inductive IsNaN : (cs : List Char) → Prop where
  | unsigned {cs : List Char} (h : cs.map Char.toLower = "nan".toList) : IsNaN cs
  | plus {cs : List Char} (h : cs.map Char.toLower = "nan".toList) : IsNaN ('+' :: cs)
  | minus {cs : List Char} (h : cs.map Char.toLower = "nan".toList) : IsNaN ('-' :: cs)

theorem decimalOfChars?_ne_nan (negative : Bool) (cs : List Char)
    : decimalOfChars? negative cs ≠ some .nan := by
  intro h
  unfold decimalOfChars? at h
  rcases Option.ite_none_left_eq_some.1 h with ⟨-, h⟩
  rcases Option.map_eq_some_iff.1 h with ⟨exponent, -, h⟩
  cases h

theorem ofChars?_eq_nan_iff_splitSign {cs : List Char}
    : ofChars? cs = some .nan ↔ (splitSign cs).2.map Char.toLower = "nan".toList := by
  unfold ofChars?
  generalize splitSign cs = split
  rcases split with ⟨negative, cs⟩
  dsimp only
  have hword : cs.map Char.toLower = "nan".toList
      ↔ String.ofList (cs.map Char.toLower) = "nan" := by
    simp [← String.toList_inj]
  rw [hword]
  split
  . next h => simp [h]
  . next h =>
    split
    . simp [h]
    . simp [h, decimalOfChars?_ne_nan]

theorem splitSign_of_map_toLower {cs : List Char} (h : cs.map Char.toLower = "nan".toList)
    : splitSign cs = (false, cs) := by
  unfold splitSign
  split
  . cases h
  . cases h
  . rfl

theorem ofChars?_eq_nan_iff {cs : List Char}
    : ofChars? cs = some .nan ↔ IsNaN cs := by
  rw [ofChars?_eq_nan_iff_splitSign]
  constructor
  . intro h
    unfold splitSign at h
    split at h
    . apply IsNaN.minus h
    . apply IsNaN.plus h
    . apply IsNaN.unsigned h
  . intro h
    cases h with
    | unsigned h => rwa [splitSign_of_map_toLower h]
    | plus h => exact h
    | minus h => exact h

theorem isNaN_toFloat32_iff (n : Numeral)
    : n.toFloat32.isNaN = true ↔ n = .nan := by
  cases n with
  | nan => exact iff_of_true rfl rfl
  | infinite negative =>
    have hinfinite : (infinite negative).toFloat32.isNaN = false := by
      cases negative <;> rfl
    rw [hinfinite]
    simp
  | decimal negative digits exponent =>
    have hdecimal : (decimal negative digits exponent).toFloat32.isNaN = false := by
      unfold toFloat32
      dsimp only
      split
      . rw [Single.isNaN_neg, Single.isNaN_ofScientific]
      . apply Single.isNaN_ofScientific
    rw [hdecimal]
    simp

end Numeral

end TreeStyle
