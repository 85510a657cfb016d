import Mathlib.Data.List.Basic
import TreeStyle.Property.Store

/-!
This module contains the effect of the operations of a store on the slots of its properties.
-/

namespace TreeStyle

def Slot.settle (slot? : Option Slot) (value : Option Value) : Option Slot :=
  match slot? with
  | some (.user v) => some (.user v)
  | _ => value.map .style

namespace PropertyStore

variable {s : PropertyStore} {p q : String}

theorem origin_eq_user_iff : s.origin p = .user ↔ ∃ v, s.slot? p = some (.user v) := by
  unfold origin
  cases s.slot? p with
  | none => simp
  | some slot => cases slot <;> simp [Slot.origin]

theorem origin_eq_unset_iff : s.origin p = .unset ↔ s.slot? p = none := by
  unfold origin
  cases s.slot? p with
  | none => simp
  | some slot => cases slot <;> simp [Slot.origin]

theorem settle_of_user (h : s.origin p = .user) (value : Option Value)
    : Slot.settle (s.slot? p) value = s.slot? p := by
  rcases origin_eq_user_iff.1 h with ⟨v, hv⟩
  rw [hv]
  rfl

theorem settle_of_ne_user (h : s.origin p ≠ .user) (value : Option Value)
    : Slot.settle (s.slot? p) value = value.map .style := by
  rw [Ne, origin_eq_user_iff] at h
  unfold Slot.settle
  split
  . next v hv => exact absurd ⟨v, hv⟩ h
  . rfl

theorem slot?_clear (s : PropertyStore) (p q : String)
    : (s.clear q).slot? p = if p = q then none else s.slot? p := by
  unfold clear slot?
  induction s.slots with
  | nil => simp
  | cons entry slots ih =>
    rcases entry with ⟨key, slot⟩
    rw [List.filter_cons, List.lookup_cons]
    by_cases hkey : key = q
    . rw [if_neg (by simp [hkey]), ih]
      by_cases hp : p = q
      . rw [if_pos hp, if_pos hp]
      . rw [if_neg hp, if_neg hp, hkey, beq_eq_false_iff_ne.2 hp]
    . rw [if_pos (by simp [hkey]), List.lookup_cons, ih]
      by_cases hp : p = key
      . simp [hp, hkey]
      . rw [beq_eq_false_iff_ne.2 hp]

theorem slot?_put (s : PropertyStore) (p q : String) (slot : Slot)
    : (s.put q slot).slot? p = if p = q then some slot else s.slot? p := by
  have hclear := slot?_clear s p q
  unfold put
  unfold slot? at *
  rw [List.lookup_cons, hclear]
  by_cases hp : p = q
  . simp [hp]
  . rw [beq_eq_false_iff_ne.2 hp, if_neg hp]
    simp [hp]

theorem setStyle?_of_ne_user (h : s.origin q ≠ .user) (value : Value)
    : s.setStyle? q value = some (s.put q (.style value)) := by
  unfold setStyle?
  rw [if_neg h]

theorem clear_of_slot?_eq_none (h : s.slot? q = none) : s.clear q = s := by
  unfold slot? at h
  rw [List.lookup_eq_none_iff] at h
  unfold clear
  rw [List.filter_eq_self.2]
  intro entry hentry
  rw [bne_comm]
  exact h entry hentry

theorem clearStyle_of_ne_user (h : s.origin q ≠ .user) : (s.clearStyle q).2 = s.clear q := by
  unfold clearStyle
  split
  . rfl
  . next hstyle =>
    have hunset : s.origin q = .unset := by
      cases hq : s.origin q with
      | unset => rfl
      | style => exact absurd hq hstyle
      | user => exact absurd hq h
    rw [origin_eq_unset_iff] at hunset
    rw [clear_of_slot?_eq_none hunset]

def settle (s : PropertyStore) (decision : String × Option Value) : PropertyStore :=
  if s.origin decision.1 = .user then s
  else ⟨(decision.2.map fun v => (decision.1, .style v)).toList ++ (s.clear decision.1).slots⟩

theorem slot?_settle (s : PropertyStore) (q : String) (value : Option Value) (p : String)
    : (s.settle (q, value)).slot? p
        = if p = q then Slot.settle (s.slot? p) value else s.slot? p := by
  unfold settle
  dsimp only
  split
  . next huser =>
    by_cases hp : p = q
    . rw [if_pos hp, hp, settle_of_user huser]
    . rw [if_neg hp]
  . next huser =>
    have hsettle := settle_of_ne_user huser value
    cases value with
    | none =>
      have hclear : (s.clear q).slot? p = if p = q then none else s.slot? p := slot?_clear s p q
      by_cases hp : p = q
      . rw [if_pos hp] at hclear ⊢
        rw [hp] at hclear ⊢
        rw [hsettle]
        exact hclear
      . rw [if_neg hp] at hclear ⊢
        exact hclear
    | some v =>
      have hput : (s.put q (.style v)).slot? p = if p = q then some (.style v) else s.slot? p :=
        slot?_put s p q (.style v)
      by_cases hp : p = q
      . rw [if_pos hp] at hput ⊢
        rw [hp] at hput ⊢
        rw [hsettle]
        exact hput
      . rw [if_neg hp] at hput ⊢
        exact hput

theorem slot?_foldl_settle {decided : List (String × Option Value)}
    (hnodup : (decided.map (·.1)).Nodup) (s : PropertyStore) (p : String)
    : (decided.foldl settle s).slot? p
        = (decided.lookup p).elim (s.slot? p) (Slot.settle (s.slot? p)) := by
  induction decided generalizing s with
  | nil => rfl
  | cons decision decided ih =>
    rcases decision with ⟨q, value⟩
    rw [List.map_cons, List.nodup_cons] at hnodup
    rw [List.foldl_cons, ih hnodup.2, slot?_settle, List.lookup_cons]
    by_cases hp : p = q
    . -- A property is decided once, so that the other decisions leave its slot alone.
      have hnone : decided.lookup p = none := by
        rw [List.lookup_eq_none_iff]
        intro entry hmem
        rw [bne_iff_ne, hp]
        intro heq
        exact hnodup.1 (List.mem_map.2 ⟨entry, hmem, heq.symm⟩)
      rw [hnone, if_pos hp, hp, beq_self_eq_true]
      rfl
    . rw [if_neg hp, beq_eq_false_iff_ne.2 hp]

theorem slot?_foldl_settle_of_user {v : Value} (h : s.slot? p = some (.user v))
    (decided : List (String × Option Value))
    : (decided.foldl settle s).slot? p = some (.user v) := by
  induction decided generalizing s with
  | nil => exact h
  | cons decision decided ih =>
    apply ih
    rw [slot?_settle, h]
    split <;> rfl

theorem origin_settle_eq_user_iff (s : PropertyStore) (decision : String × Option Value)
    : (s.settle decision).origin p = .user ↔ s.origin p = .user := by
  rcases decision with ⟨q, value⟩
  rw [origin_eq_user_iff, origin_eq_user_iff, slot?_settle]
  split
  . unfold Slot.settle
    split
    . next v hv => simp [hv]
    . next hne =>
      constructor
      . intro h
        rcases h with ⟨v, hv⟩
        cases value <;> cases hv
      . intro h
        rcases h with ⟨v, hv⟩
        exact absurd hv (hne v)
  . exact Iff.rfl

theorem origin_foldl_settle_eq_user_iff (decided : List (String × Option Value))
    (s : PropertyStore)
    : (decided.foldl settle s).origin p = .user ↔ s.origin p = .user := by
  induction decided generalizing s with
  | nil => exact Iff.rfl
  | cons decision decided ih => rw [List.foldl_cons, ih, origin_settle_eq_user_iff]

theorem slot?_clearStyles_of_user {v : Value} (h : s.slot? p = some (.user v))
    : s.clearStyles.slot? p = some (.user v) := by
  unfold clearStyles
  unfold slot? at *
  dsimp only
  generalize s.slots = slots at h
  induction slots with
  | nil => cases h
  | cons entry slots ih =>
    rcases entry with ⟨key, slot⟩
    rw [List.lookup_cons] at h
    rw [List.filter_cons]
    by_cases hp : p = key
    . rw [hp, beq_self_eq_true] at h
      cases h
      simp [hp, Slot.origin]
    . rw [beq_eq_false_iff_ne.2 hp] at h
      split
      . rw [List.lookup_cons, beq_eq_false_iff_ne.2 hp]
        exact ih h
      . exact ih h

def userValue? (s : PropertyStore) (property : String) : Option Value :=
  match s.slot? property with
  | some (.user v) => some v
  | _ => none

def Distinct (s : PropertyStore) : Prop := (s.slots.map (·.1)).Nodup

namespace Distinct

theorem empty : ({} : PropertyStore).Distinct := List.nodup_nil

theorem filter (h : s.Distinct) (keep : String × Slot → Bool) : Distinct ⟨s.slots.filter keep⟩ :=
  h.sublist (List.filter_sublist.map _)

theorem clear (h : s.Distinct) (q : String) : (s.clear q).Distinct := h.filter _

theorem put (h : s.Distinct) (q : String) (slot : Slot) : (s.put q slot).Distinct := by
  refine List.nodup_cons.2 ⟨?_, h.clear q⟩
  intro hmem
  rcases List.mem_map.1 hmem with ⟨entry, hentry, heq⟩
  have hne := (List.mem_filter.1 hentry).2
  rw [heq] at hne
  simp at hne

theorem clearStyle (h : s.Distinct) (q : String) : (s.clearStyle q).2.Distinct := by
  unfold PropertyStore.clearStyle
  split
  . exact h.clear q
  . exact h

theorem clearStyles (h : s.Distinct) : s.clearStyles.Distinct := h.filter _

theorem slot?_eq_some_iff (h : s.Distinct) {slot : Slot}
    : s.slot? p = some slot ↔ (p, slot) ∈ s.slots := by
  unfold Distinct at h
  unfold slot?
  generalize s.slots = slots at h
  induction slots with
  | nil => simp
  | cons entry slots ih =>
    rcases entry with ⟨key, first⟩
    rw [List.map_cons, List.nodup_cons] at h
    rw [List.lookup_cons, List.mem_cons, Prod.mk.injEq]
    by_cases hp : p = key
    . rw [hp, beq_self_eq_true]
      have hnot : (key, slot) ∉ slots := fun hmem => h.1 (List.mem_map.2 ⟨_, hmem, rfl⟩)
      simp [hnot, eq_comm]
    . rw [beq_eq_false_iff_ne.2 hp]
      simpa [hp] using ih h.2

theorem slot?_clearStyles (h : s.Distinct) (p : String)
    : s.clearStyles.slot? p = (s.userValue? p).map .user := by
  apply Option.ext
  intro slot
  rw [h.clearStyles.slot?_eq_some_iff, Option.map_eq_some_iff]
  unfold PropertyStore.clearStyles userValue?
  rw [List.mem_filter, ← h.slot?_eq_some_iff]
  cases hslot : s.slot? p with
  | none => simp
  | some found =>
    cases found with
    | style v =>
      simp only [Option.some.injEq, reduceCtorEq, false_and, exists_false, iff_false, not_and]
      intro heq
      simp [← heq, Slot.origin]
    | user v =>
      simp only [Option.some.injEq, exists_eq_left']
      constructor
      . intro hboth
        exact hboth.1
      . intro heq
        simp [← heq, Slot.origin]

end Distinct

end PropertyStore

end TreeStyle
