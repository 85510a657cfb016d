import Mathlib.Data.List.Induction
import Mathlib.Data.Set.Card
import TreeStyle.Proofs.Store

/-!
This module contains the histories of stores. What a store holds for a property can be read off the
operations that were carried out since it was empty: the last one that counts for the property tells
the value, and whose it is.
-/

namespace TreeStyle

inductive StoreOperation where
  | setUser (property : String) (value : Value)
  | setStyle (property : String) (value : Value)
  | clear (property : String)
  | clearStyle (property : String)
  | clearStyles

namespace StoreOperation

def ByUser (p : String) : StoreOperation → Prop
  | .setUser q _ => q = p
  | .clear q => q = p
  | _ => False

/--
The value that a style has set is replaced or dropped. What the user sets is not looked at here: it
does not matter who comes first while there is a value of the user.
-/
def EndsStyle (p : String) : StoreOperation → Prop
  | .setUser _ _ => False
  | .setStyle q _ => q = p
  | .clear q => q = p
  | .clearStyle q => q = p
  | .clearStyles => True

def effect (p : String) : StoreOperation → Option Slot → Option Slot
  | .setUser q v, slot? => if p = q then some (.user v) else slot?
  | .setStyle q v, slot? => if p = q then Slot.settle slot? (some v) else slot?
  | .clear q, slot? => if p = q then none else slot?
  | .clearStyle q, slot? => if p = q then Slot.settle slot? none else slot?
  | .clearStyles, slot? => Slot.settle slot? none

def IsLast (counts : StoreOperation → Prop) (ops : List StoreOperation) (op : StoreOperation) :
    Prop :=
  ∃ before after, ops = before ++ op :: after ∧ ∀ later ∈ after, ¬ counts later

def SetByUser (ops : List StoreOperation) (p : String) (v : Value) : Prop :=
  IsLast (ByUser p) ops (.setUser p v)

def SetByStyle (ops : List StoreOperation) (p : String) (v : Value) : Prop :=
  IsLast (EndsStyle p) ops (.setStyle p v)

variable {counts : StoreOperation → Prop} {ops : List StoreOperation} {op last : StoreOperation}
variable {p : String} {v : Value} {slot? : Option Slot}

theorem not_isLast_nil
    : ¬ IsLast counts [] op := by
  intro h
  rcases h with ⟨before, after, heq, -⟩
  simp at heq

theorem isLast_concat_iff
    : IsLast counts (ops ++ [last]) op ↔ last = op ∨ ¬ counts last ∧ IsLast counts ops op := by
  constructor
  . intro h
    rcases h with ⟨before, after, heq, hafter⟩
    rcases after.eq_nil_or_concat with rfl | ⟨after, later, rfl⟩
    . left
      exact List.head_eq_of_cons_eq (List.append_inj' heq rfl).2
    . right
      rw [List.concat_eq_append, ← List.cons_append, ← List.append_assoc] at heq
      rcases List.append_inj' heq rfl with ⟨hops, hlast⟩
      rw [List.concat_eq_append, List.forall_mem_append] at hafter
      rw [List.head_eq_of_cons_eq hlast]
      exact ⟨hafter.2 _ (List.mem_singleton_self _), before, after, hops, hafter.1⟩
  . intro h
    rcases h with rfl | ⟨hlast, before, after, hops, hafter⟩
    . exact ⟨ops, [], rfl, by simp⟩
    . refine ⟨before, after ++ [last], by simp [hops], ?_⟩
      rw [List.forall_mem_append, List.forall_mem_singleton]
      exact ⟨hafter, hlast⟩

theorem setByUser_concat_iff
    : SetByUser (ops ++ [op]) p v ↔ op = .setUser p v ∨ ¬ op.ByUser p ∧ SetByUser ops p v :=
  isLast_concat_iff

theorem setByStyle_concat_iff
    : SetByStyle (ops ++ [op]) p v ↔ op = .setStyle p v ∨ ¬ op.EndsStyle p ∧ SetByStyle ops p v :=
  isLast_concat_iff

theorem settle_eq_user_iff {value : Option Value}
    : Slot.settle slot? value = some (.user v) ↔ slot? = some (.user v) := by
  unfold Slot.settle
  split
  . exact Iff.rfl
  . next hne =>
    constructor
    . intro h
      cases value <;> cases h
    . intro h
      exact absurd h (hne v)

theorem settle_some_eq_style_iff {value : Value}
    : Slot.settle slot? (some value) = some (.style v) ↔
        value = v ∧ ∀ u, slot? ≠ some (.user u) := by
  unfold Slot.settle
  split <;> simp_all

theorem settle_none_ne_style
    : Slot.settle slot? none ≠ some (.style v) := by
  unfold Slot.settle
  split <;> simp

theorem byUser_cases (h : op.ByUser p) : (∃ v, op = .setUser p v) ∨ op.EndsStyle p := by
  cases op with
  | setUser q v =>
    cases h
    exact Or.inl ⟨v, rfl⟩
  | clear q => exact Or.inr h
  | setStyle q v => cases h
  | clearStyle q => cases h
  | clearStyles => cases h

theorem effect_eq_user_iff
    : op.effect p slot? = some (.user v) ↔
        op = .setUser p v ∨ ¬ op.ByUser p ∧ slot? = some (.user v) := by
  cases op with
  | setUser q value =>
    by_cases hq : p = q
    . simp [effect, ByUser, hq]
    . simp [effect, ByUser, hq, Ne.symm hq]
  | setStyle q value =>
    by_cases hq : p = q
    . simp [effect, ByUser, hq, settle_eq_user_iff]
    . simp [effect, ByUser, hq]
  | clear q =>
    by_cases hq : p = q
    . simp [effect, ByUser, hq]
    . simp [effect, ByUser, hq, Ne.symm hq]
  | clearStyle q =>
    by_cases hq : p = q
    . simp [effect, ByUser, hq, settle_eq_user_iff]
    . simp [effect, ByUser, hq]
  | clearStyles => simp [effect, ByUser, settle_eq_user_iff]

theorem effect_eq_style_iff
    : op.effect p slot? = some (.style v) ↔
        op = .setStyle p v ∧ (∀ u, slot? ≠ some (.user u)) ∨
          ¬ op.ByUser p ∧ ¬ op.EndsStyle p ∧ slot? = some (.style v) := by
  cases op with
  | setUser q value =>
    by_cases hq : p = q
    . simp [effect, ByUser, hq]
    . simp [effect, ByUser, EndsStyle, hq, Ne.symm hq]
  | setStyle q value =>
    by_cases hq : p = q
    . simp [effect, EndsStyle, hq, settle_some_eq_style_iff]
    . simp [effect, ByUser, EndsStyle, hq, Ne.symm hq]
  | clear q =>
    by_cases hq : p = q
    . simp [effect, ByUser, hq]
    . simp [effect, ByUser, EndsStyle, hq, Ne.symm hq]
  | clearStyle q =>
    by_cases hq : p = q
    . simp [effect, EndsStyle, hq, settle_none_ne_style]
    . simp [effect, ByUser, EndsStyle, hq, Ne.symm hq]
  | clearStyles => simp [effect, EndsStyle, settle_none_ne_style]

end StoreOperation

namespace PropertyStore

open StoreOperation

/--
Carries out an operation. The first part is the answer of those operations that give one: whether
the value was stored, or whether one was dropped.
-/
def perform (s : PropertyStore) : StoreOperation → Option Bool × PropertyStore
  | .setUser p v => (none, s.setUser p v)
  | .setStyle p v =>
    match s.setStyle? p v with
    | some s => (some true, s)
    | none => (some false, s)
  | .clear p => (none, s.clear p)
  | .clearStyle p =>
    let (dropped, s) := s.clearStyle p
    (some dropped, s)
  | .clearStyles => (none, s.clearStyles)

def ofHistory (ops : List StoreOperation) : PropertyStore :=
  ops.foldl (fun s op => (s.perform op).2) {}

variable {s : PropertyStore} {ops : List StoreOperation} {p : String} {v : Value}

theorem perform_setStyle (s : PropertyStore) (p : String) (v : Value)
    : s.perform (.setStyle p v) = (some (decide (s.origin p ≠ .user)), s.settle (p, some v)) := by
  unfold perform setStyle? settle
  by_cases huser : s.origin p = .user
  . simp [huser]
  . simp [huser, put]

theorem perform_clearStyle (s : PropertyStore) (p : String)
    : s.perform (.clearStyle p) = (some (decide (s.origin p = .style)), s.settle (p, none)) := by
  unfold perform settle
  dsimp only
  rw [Prod.mk.injEq]
  constructor
  . unfold clearStyle
    split <;> simp [*]
  . split
    . next huser =>
      unfold clearStyle
      rw [if_neg (by simp [huser])]
    . next huser => exact clearStyle_of_ne_user huser

theorem Distinct.settle (h : s.Distinct) (decision : String × Option Value)
    : (s.settle decision).Distinct := by
  rcases decision with ⟨q, value⟩
  unfold PropertyStore.settle
  split
  . exact h
  . cases value with
    | none => exact h.clear q
    | some v => exact h.put q (.style v)

theorem Distinct.perform (h : s.Distinct) (op : StoreOperation) : (s.perform op).2.Distinct := by
  cases op with
  | setUser p v => exact h.put p _
  | setStyle p v =>
    rw [perform_setStyle]
    exact h.settle _
  | clear p => exact h.clear p
  | clearStyle p =>
    rw [perform_clearStyle]
    exact h.settle _
  | clearStyles => exact h.clearStyles

theorem slot?_perform (h : s.Distinct) (op : StoreOperation) (p : String)
    : (s.perform op).2.slot? p = op.effect p (s.slot? p) := by
  cases op with
  | setUser q v => exact s.slot?_put p q (.user v)
  | setStyle q v =>
    rw [perform_setStyle]
    exact s.slot?_settle q (some v) p
  | clear q => exact s.slot?_clear p q
  | clearStyle q =>
    rw [perform_clearStyle]
    exact s.slot?_settle q none p
  | clearStyles =>
    refine (h.slot?_clearStyles p).trans ?_
    unfold userValue? effect
    rcases s.slot? p with _ | ⟨_ | _⟩ <;> rfl

theorem ofHistory_concat (ops : List StoreOperation) (op : StoreOperation)
    : ofHistory (ops ++ [op]) = ((ofHistory ops).perform op).2 := by
  unfold ofHistory
  rw [List.foldl_append]
  rfl

theorem distinct_ofHistory (ops : List StoreOperation) : (ofHistory ops).Distinct := by
  induction ops using List.reverseRecOn with
  | nil => exact .empty
  | append_singleton ops op ih =>
    rw [ofHistory_concat]
    exact ih.perform op

theorem slot?_ofHistory_concat (ops : List StoreOperation) (op : StoreOperation) (p : String)
    : (ofHistory (ops ++ [op])).slot? p = op.effect p ((ofHistory ops).slot? p) := by
  rw [ofHistory_concat, slot?_perform (distinct_ofHistory ops)]

theorem slot?_ofHistory_eq_user_iff
    : (ofHistory ops).slot? p = some (.user v) ↔ SetByUser ops p v := by
  induction ops using List.reverseRecOn with
  | nil =>
    constructor
    . intro h
      cases h
    . intro h
      exact absurd h not_isLast_nil
  | append_singleton ops op ih =>
    rw [slot?_ofHistory_concat, effect_eq_user_iff, setByUser_concat_iff, ih]

theorem slot?_ofHistory_eq_style_iff
    : (ofHistory ops).slot? p = some (.style v) ↔
        (¬ ∃ u, SetByUser ops p u) ∧ SetByStyle ops p v := by
  induction ops using List.reverseRecOn with
  | nil =>
    constructor
    . intro h
      cases h
    . intro h
      exact absurd h.2 not_isLast_nil
  | append_singleton ops op ih =>
    have hnone : (∀ u, (ofHistory ops).slot? p ≠ some (.user u)) ↔ ¬ ∃ u, SetByUser ops p u := by
      simp only [Ne, slot?_ofHistory_eq_user_iff, not_exists]
    rw [slot?_ofHistory_concat, effect_eq_style_iff, hnone, ih]
    by_cases hstyle : op = .setStyle p v
    . simp [setByUser_concat_iff, setByStyle_concat_iff, hstyle, ByUser, EndsStyle]
    . by_cases huser : op.ByUser p
      . -- Either the user has set the property now, or nothing is left of what styles have set.
        rcases byUser_cases huser with ⟨u, hset⟩ | hends
        . simp [setByUser_concat_iff, setByStyle_concat_iff, hset, ByUser]
        . simp [setByUser_concat_iff, setByStyle_concat_iff, hstyle, huser, hends]
      . have hset : ∀ u, op ≠ .setUser p u := by
          intro u heq
          apply huser
          rw [heq]
          rfl
        simp only [setByUser_concat_iff, setByStyle_concat_iff, hstyle, huser, hset,
          not_false_eq_true, true_and, false_and, false_or]
        rw [and_left_comm]

theorem slot?_eq_none_iff
    : s.slot? p = none ↔ p ∉ s.slots.map (·.1) := by
  unfold slot?
  rw [List.lookup_eq_none_iff, List.mem_map, not_exists]
  constructor
  . intro h entry hentry
    have hne := h entry hentry.1
    rw [hentry.2] at hne
    simp at hne
  . intro h entry hentry
    rw [bne_iff_ne]
    intro heq
    exact h entry ⟨hentry, heq.symm⟩

theorem Distinct.encard_eq_size (h : s.Distinct)
    : {p | s.origin p ≠ .unset}.encard = s.size := by
  have hkeys : {p | s.origin p ≠ .unset} = ((s.slots.map (·.1)).toFinset : Set String) := by
    ext p
    rw [List.coe_toFinset]
    show s.origin p ≠ .unset ↔ p ∈ s.slots.map (·.1)
    rw [Ne, origin_eq_unset_iff, slot?_eq_none_iff, not_not]
  have hsize : s.size = (s.slots.map (·.1)).length := (List.length_map _).symm
  rw [hkeys, Set.encard_coe_eq_coe_finsetCard, List.toFinset_card_of_nodup h, hsize]

theorem slot?_eq_some_iff_shown {slot : Slot}
    : s.slot? p = some slot ↔ s.origin p = slot.origin ∧ s.get? p = some slot.value := by
  unfold origin get?
  rcases s.slot? p with _ | ⟨_ | _⟩ <;> cases slot <;> simp [Slot.origin, Slot.value]

theorem get?_eq_none_iff
    : s.get? p = none ↔ s.origin p = .unset := by
  unfold get?
  rw [Option.map_eq_none_iff, origin_eq_unset_iff]

theorem origin_ofHistory_eq_unset_iff
    : (ofHistory ops).origin p = .unset ↔
        (¬ ∃ v, SetByUser ops p v) ∧ ¬ ∃ v, SetByStyle ops p v := by
  rw [origin_eq_unset_iff]
  constructor
  . intro hnone
    have huser : ¬ ∃ v, SetByUser ops p v := by
      simp [← slot?_ofHistory_eq_user_iff, hnone]
    refine ⟨huser, ?_⟩
    intro hstyle
    rcases hstyle with ⟨v, hv⟩
    rw [slot?_ofHistory_eq_style_iff.2 ⟨huser, hv⟩] at hnone
    cases hnone
  . intro h
    cases hslot : (ofHistory ops).slot? p with
    | none => rfl
    | some slot =>
      cases slot with
      | user v => exact absurd ⟨v, slot?_ofHistory_eq_user_iff.1 hslot⟩ h.1
      | style v => exact absurd ⟨v, (slot?_ofHistory_eq_style_iff.1 hslot).2⟩ h.2

structure Reflects (s : PropertyStore) (ops : List StoreOperation) : Prop where
  user_iff : ∀ p v, s.origin p = .user ∧ s.get? p = some v ↔ SetByUser ops p v
  style_iff : ∀ p v, s.origin p = .style ∧ s.get? p = some v ↔
    (¬ ∃ u, SetByUser ops p u) ∧ SetByStyle ops p v
  unset_iff : ∀ p, s.origin p = .unset ↔ (¬ ∃ u, SetByUser ops p u) ∧ ¬ ∃ v, SetByStyle ops p v
  get?_eq_none_iff : ∀ p, s.get? p = none ↔ s.origin p = .unset
  size_eq : {p | s.origin p ≠ .unset}.encard = s.size
  setStyle_answer : ∀ p v, (s.perform (.setStyle p v)).1 = some (decide (s.origin p ≠ .user))
  clearStyle_answer : ∀ p, (s.perform (.clearStyle p)).1 = some (decide (s.origin p = .style))

/--
A store is determined by its history: the last operation of the user on a property counts, then the
last one of a style.
-/
theorem ofHistory_reflects (ops : List StoreOperation) : (ofHistory ops).Reflects ops where
  user_iff _ _ := slot?_eq_some_iff_shown.symm.trans slot?_ofHistory_eq_user_iff
  style_iff _ _ := slot?_eq_some_iff_shown.symm.trans slot?_ofHistory_eq_style_iff
  unset_iff _ := origin_ofHistory_eq_unset_iff
  get?_eq_none_iff _ := get?_eq_none_iff
  size_eq := (distinct_ofHistory ops).encard_eq_size
  setStyle_answer p v := congrArg Prod.fst (perform_setStyle _ p v)
  clearStyle_answer p := congrArg Prod.fst (perform_clearStyle _ p)

end PropertyStore

end TreeStyle
