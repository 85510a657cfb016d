import TreeStyle.Proofs.Lexing.Spelling
import TreeStyle.Text.Ascii

/-!
This module contains what folding to lowercase leaves as it is: names stay names, and others do not
become names.
-/

namespace TreeStyle

theorem toLower_cases (c : Char)
    : c.toLower = c ∨ 97 ≤ c.toLower.toNat ∧ c.toLower.toNat ≤ 122 := by
  unfold Char.toLower
  split
  . next h =>
    have hcapital : 65 ≤ c.toNat ∧ c.toNat ≤ 90 := by
      simpa [UInt32.le_iff_toNat_le] using h
    right
    simp
    omega
  . exact .inl rfl

theorem toLower_of_small {c : Char} (h : 97 ≤ c.toNat)
    : c.toLower = c := by
  unfold Char.toLower
  rw [dif_neg]
  intro hcapital
  have : c.toNat ≤ 90 := by
    simpa [UInt32.le_iff_toNat_le] using hcapital.2
  omega

theorem toLower_toLower (c : Char)
    : c.toLower.toLower = c.toLower := by
  rcases toLower_cases c with h | h
  . rw [h, h]
  . exact toLower_of_small h.1

theorem asciiLower_asciiLower (s : String)
    : Text.asciiLower (Text.asciiLower s) = Text.asciiLower s := by
  apply String.toList_inj.1
  rw [Text.toList_asciiLower, Text.toList_asciiLower, List.map_map]
  apply List.map_congr_left
  intro c _
  exact toLower_toLower c

theorem toLower_eq_or_isAlpha (c : Char)
    : c.toLower = c ∨ c.isAlpha = true ∧ c.toLower.isAlpha = true := by
  by_cases hcapital : 65 ≤ c.toNat ∧ c.toNat ≤ 90
  . have halpha : c.isAlpha = true := isAlpha_iff.2 (.inl hcapital)
    rcases toLower_cases c with h | h
    . apply Or.inl h
    . exact .inr ⟨halpha, isAlpha_iff.2 (.inr h)⟩
  . left
    unfold Char.toLower
    rw [dif_neg]
    intro h
    apply hcapital
    simpa [UInt32.le_iff_toNat_le] using h

theorem apply_toLower {p : Char → Bool} {b : Bool} (hp : ∀ c : Char, c.isAlpha = true → p c = b)
    (c : Char)
    : p c.toLower = p c := by
  rcases toLower_eq_or_isAlpha c with h | h
  . rw [h]
  . rw [hp c h.1, hp c.toLower h.2]

theorem toLower_beq {d : Char} (hd : d.isAlpha = false) (c : Char)
    : (c.toLower == d) = (c == d) := by
  apply apply_toLower (p := (· == d)) (b := false)
  intro c hc
  rw [beq_eq_false_iff_ne]
  intro heq
  rw [heq, hd] at hc
  cases hc

theorem isBlank_toLower (c : Char)
    : Text.isBlank c.toLower = Text.isBlank c := by
  apply apply_toLower (b := false)
  intro c hc
  rw [isAlpha_iff] at hc
  simp [Text.isBlank]
  omega

theorem isIdentChar_toLower (c : Char)
    : isIdentChar c.toLower = isIdentChar c := by
  apply apply_toLower (b := true)
  intro c hc
  simp [isIdentChar, Char.isAlphanum, hc]

theorem isAlphabetic_toLower (c : Char)
    : Text.isAlphabetic c.toLower = Text.isAlphabetic c := by
  apply apply_toLower (b := true)
  intro c hc
  apply Text.isAlphabetic_of_isAlpha hc
  rw [isAlpha_iff] at hc
  omega

theorem startsIdent_map_toLower (cs : List Char)
    : startsIdent (cs.map Char.toLower) = startsIdent cs := by
  match cs with
  | [] => rfl
  | c :: cs =>
    rw [List.map_cons]
    by_cases hc : c = '-'
    . subst hc
      cases cs with
      | nil => rfl
      | cons c cs =>
        show (c.toLower == '-' || c.toLower == '_' || Text.isAlphabetic c.toLower)
          = (c == '-' || c == '_' || Text.isAlphabetic c)
        rw [toLower_beq rfl, toLower_beq rfl, isAlphabetic_toLower]
    . have hlower : c.toLower ≠ '-' := by
        rwa [← beq_eq_false_iff_ne, toLower_beq rfl, beq_eq_false_iff_ne]
      have hstart : ∀ {d : Char} {ds : List Char}, d ≠ '-' →
          startsIdent (d :: ds) = (d == '_' || d.isAlpha || decide (0x80 ≤ d.toNat)) := by
        intro d ds hd
        rw [startsIdent]
        simpa using hd
      rw [hstart hlower, hstart hc]
      apply apply_toLower (b := true)
        (p := fun d => d == '_' || d.isAlpha || decide (0x80 ≤ d.toNat))
      intro d hd
      rw [hd, Bool.or_true, Bool.true_or]

theorem isName_map_toLower_iff {cs : List Char}
    : IsName (cs.map Char.toLower) ↔ IsName cs := by
  have hgoesOn : (∀ c ∈ cs.map Char.toLower, isIdentChar c = true) ↔
      ∀ c ∈ cs, isIdentChar c = true := by
    rw [List.forall_mem_map]
    simp only [isIdentChar_toLower]
  have hblank : (∀ c ∈ (cs.map Char.toLower).head?, Text.isBlank c = false) ↔
      ∀ c ∈ cs.head?, Text.isBlank c = false := by
    rw [List.head?_map]
    cases cs.head? with
    | none => simp
    | some c => simp [isBlank_toLower]
  constructor
  . intro h
    exact ⟨(startsIdent_map_toLower cs).symm.trans h.starts, hgoesOn.1 h.goesOn,
      hblank.1 h.notBlank⟩
  . intro h
    exact ⟨(startsIdent_map_toLower cs).trans h.starts, hgoesOn.2 h.goesOn, hblank.2 h.notBlank⟩

end TreeStyle
