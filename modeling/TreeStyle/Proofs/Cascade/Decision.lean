import Mathlib.Data.List.Basic
import TreeStyle.Proofs.Position
import TreeStyle.Proofs.Store
import TreeStyle.Proofs.Typing

/-!
This module contains the effect of the cascade on one property of one widget. The first declaration
that gives the property a value settles its slot, and the other slots do not matter for it.
-/

namespace TreeStyle

def Verdict.value? (p : String) : Verdict → Option (Option Value)
  | .sets property (.ok value) => if property = p then some value else none
  | _ => none

namespace Cascade

/--
A declaration gives a property the value if its name resolves to the property, and if it asks for
the default or for a text that converts to the type of the property.
-/
def Gives (registry : Registry) (resolve? : PropertyName → Option PropertyDescriptor) (p : String)
    (d : Declaration) (value : Option Value) : Prop :=
  ∃ property, resolve? (registry.classify d.property) = some property ∧ property.name = p ∧
    valueFor d.value property = .ok value

theorem Gives.value_eq {registry : Registry} {resolve? : PropertyName → Option PropertyDescriptor}
    {p : String} {d : Declaration} {value value' : Option Value}
    (h : Gives registry resolve? p d value) (h' : Gives registry resolve? p d value')
    : value = value' := by
  rcases h with ⟨property, hproperty, _, hvalue⟩
  rcases h' with ⟨property', hproperty', _, hvalue'⟩
  rw [hproperty] at hproperty'
  cases hproperty'
  rw [hvalue] at hvalue'
  cases hvalue'
  rfl

section Verdict

variable {α : Type} [Stylable α] {registry : Registry} {element : α} {p : String}
variable {d : Declaration} {value : Option Value}

theorem value?_sets_eq_some_iff {property : PropertyDescriptor}
    : Verdict.value? p (.sets property.name (valueFor d.value property)) = some value
        ↔
      property.name = p ∧ valueFor d.value property = .ok value := by
  unfold Verdict.value?
  cases valueFor d.value property with
  | error error => simp
  | ok v => simp

theorem value?_directVerdict_eq_some_iff
    : Verdict.value? p (directVerdict registry element d) = some value
        ↔
      Gives registry (Registry.resolveName? element) p d value := by
  unfold directVerdict Gives
  cases Registry.resolveName? element (registry.classify d.property) with
  | none =>
    dsimp only
    split <;> simp [Verdict.value?]
  | some property => simp [value?_sets_eq_some_iff]

theorem value?_inheritedVerdict_eq_some_iff
    : Verdict.value? p (inheritedVerdict registry element d) = some value
        ↔
      Gives registry (Registry.resolveInherited? element) p d value := by
  unfold inheritedVerdict Gives
  cases Registry.resolveInherited? element (registry.classify d.property) with
  | none => simp [Verdict.value?]
  | some property => simp [value?_sets_eq_some_iff]

end Verdict

namespace Decisions

def record (decided : Decisions) : Verdict → Decisions
  | .sets property (.ok value) =>
    if decided.decides property then decided else decided ++ [(property, value)]
  | _ => decided

theorem decides_eq_true_iff {decided : Decisions} {p : String}
    : decided.decides p = true ↔ p ∈ decided.map (·.1) := by
  unfold decides
  rw [List.any_eq_true, List.mem_map]
  simp only [beq_iff_eq]

theorem lookup_record (decided : Decisions) (verdict : Verdict) (p : String)
    : (decided.record verdict).lookup p = (decided.lookup p).or (Verdict.value? p verdict) := by
  unfold record Verdict.value?
  split
  . next property value =>
    split
    . next hdecides =>
      split
      . next heq =>
        -- The property has been decided, so that the new value does not count.
        have hsome : (decided.lookup p).isSome = true := by
          rw [List.lookup_isSome_iff]
          rw [decides_eq_true_iff, List.mem_map] at hdecides
          rcases hdecides with ⟨entry, hmem, hentry⟩
          exact ⟨entry, hmem, by simp [hentry, heq]⟩
        rw [Option.or_of_isSome hsome]
      . rw [Option.or_none]
    . rw [List.lookup_append, List.lookup_cons]
      by_cases heq : property = p
      . simp [heq]
      . rw [if_neg heq, beq_eq_false_iff_ne.2 (Ne.symm heq)]
        rfl
  . rw [Option.or_none]

theorem nodup_record {decided : Decisions} (h : (decided.map (·.1)).Nodup) (verdict : Verdict)
    : ((decided.record verdict).map (·.1)).Nodup := by
  unfold record
  split
  . next property value =>
    split
    . exact h
    . next hdecides =>
      rw [decides_eq_true_iff] at hdecides
      rw [List.map_append, List.nodup_append]
      refine ⟨h, by simp, ?_⟩
      intro q hq r hr heq
      simp only [List.map_cons, List.map_nil, List.mem_singleton] at hr
      rw [heq, hr] at hq
      exact hdecides hq
  . exact h

theorem mem_record {decided : Decisions} {verdict : Verdict} {decision : String × Option Value}
    (h : decision ∈ decided.record verdict)
    : decision ∈ decided ∨ Verdict.value? decision.1 verdict = some decision.2 := by
  unfold record at h
  split at h
  . split at h
    . exact Or.inl h
    . rcases List.mem_append.1 h with h | h
      . exact Or.inl h
      . rw [List.mem_singleton] at h
        simp [Verdict.value?, h]
  . exact Or.inl h

end Decisions

theorem fst_settle (name : String) (decided : Decisions) (items : List (Declaration × Verdict))
    : (settle name decided items).1
        = items.foldl (fun decided item => decided.record item.2) decided := by
  induction items generalizing decided with
  | nil => rfl
  | cons item items ih =>
    rcases item with ⟨d, verdict⟩
    rw [List.foldl_cons, ← ih]
    cases verdict with
    | silent => rfl
    | unknown => rfl
    | sets property value =>
      conv => lhs; unfold settle
      unfold Decisions.record
      cases value with
      | error error =>
        dsimp only
        split <;> rfl
      | ok value =>
        dsimp only
        split <;> rfl

theorem lookup_settle (name : String) (items : List (Declaration × Verdict)) (p : String)
    : (settle name [] items).1.lookup p
        = items.findSome? (fun item => Verdict.value? p item.2) := by
  have hgeneral : ∀ decided : Decisions,
      (items.foldl (fun decided item => decided.record item.2) decided).lookup p
        = (decided.lookup p).or (items.findSome? (fun item => Verdict.value? p item.2)) := by
    induction items with
    | nil =>
      intro decided
      simp
    | cons item items ih =>
      intro decided
      rw [List.foldl_cons, ih, Decisions.lookup_record, Option.or_assoc, List.findSome?_cons]
      cases Verdict.value? p item.2 <;> simp
  rw [fst_settle, hgeneral]
  rfl

theorem nodup_settle (name : String) (items : List (Declaration × Verdict))
    : ((settle name [] items).1.map (·.1)).Nodup := by
  have hgeneral : ∀ decided : Decisions, (decided.map (·.1)).Nodup →
      ((items.foldl (fun decided item => decided.record item.2) decided).map (·.1)).Nodup := by
    induction items with
    | nil =>
      intro decided h
      exact h
    | cons item items ih =>
      intro decided h
      rw [List.foldl_cons]
      exact ih _ (Decisions.nodup_record h item.2)
  rw [fst_settle]
  exact hgeneral [] List.nodup_nil

theorem mem_settle {name : String} {items : List (Declaration × Verdict)}
    {decision : String × Option Value} (h : decision ∈ (settle name [] items).1)
    : ∃ item ∈ items, Verdict.value? decision.1 item.2 = some decision.2 := by
  have hgeneral : ∀ (items : List (Declaration × Verdict)) (decided : Decisions),
      decision ∈ items.foldl (fun decided item => decided.record item.2) decided →
      decision ∈ decided ∨ ∃ item ∈ items, Verdict.value? decision.1 item.2 = some decision.2 := by
    intro items
    induction items with
    | nil =>
      intro decided h
      exact Or.inl h
    | cons item items ih =>
      intro decided h
      rw [List.foldl_cons] at h
      rcases ih _ h with h | ⟨item', hmem, hvalue⟩
      . rcases Decisions.mem_record h with h | hvalue
        . exact Or.inl h
        . exact Or.inr ⟨item, List.mem_cons_self, hvalue⟩
      . exact Or.inr ⟨item', List.mem_cons_of_mem _ hmem, hvalue⟩
  rw [fst_settle] at h
  exact (hgeneral items [] h).resolve_left List.not_mem_nil

section Decisions

variable {α : Type} [Stylable α]

def decisions (registry : Registry) (direct pool : List Declaration) (element : α) : Decisions :=
  (settle (Stylable.describe element) [] (verdicts registry element direct pool)).1

def rejections (registry : Registry) (direct pool : List Declaration) (element : α) :
    List Diagnostic :=
  (settle (Stylable.describe element) [] (verdicts registry element direct pool)).2

end Decisions

section Write

variable {e : Widget} {p q : String} {value : Option Value}

/--
What is decided for a property has the type that the kind of a widget declares for it.
-/
def Typed (kind : WidgetKind) (q : String) (value : Option Value) : Prop :=
  ∀ v, value = some v →
    ∃ property, kind.property? q = some property ∧ v.isOf property.type = true

theorem setStyle?_of_typed (huser : e.origin q ≠ .user) {v : Value} {property : PropertyDescriptor}
    (hproperty : e.kind.property? q = some property) (hv : v.isOf property.type = true)
    : e.setStyle? q v = some { e with store := e.store.put q (.style v) } := by
  have hname : property.name = q := by
    have := List.find?_some hproperty
    rwa [beq_iff_eq] at this
  have hset := PropertyStore.setStyle?_of_ne_user huser v
  unfold Widget.setStyle? Widget.property?
  rw [hproperty]
  simp [hv, hname, hset]

theorem write_of_typed (t : Tally) (htyped : Typed e.kind q value)
    : write (e, t) (q, value)
        =
      ({ e with store := e.store.settle (q, value) },
        if e.origin q = .user then { t with skippedUserSet := t.skippedUserSet + 1 }
        else { t with applied := t.applied + 1 }) := by
  have horigin : Stylable.origin e q = e.store.origin q := rfl
  have horigin' : e.origin q = e.store.origin q := rfl
  unfold write PropertyStore.settle
  dsimp only
  rw [horigin, horigin']
  split
  . rfl
  . next huser =>
    cases value with
    | none =>
      have hclear : e.clearStyle q = { e with store := e.store.clear q } := by
        unfold Widget.clearStyle
        rw [PropertyStore.clearStyle_of_ne_user huser]
      exact congrArg (·, _) hclear
    | some v =>
      -- The widget does not refuse a value of the declared type.
      rcases htyped v rfl with ⟨property, hproperty, hv⟩
      have hset : Stylable.setStyle? e q v = some { e with store := e.store.put q (.style v) } :=
        setStyle?_of_typed huser hproperty hv
      dsimp only
      rw [hset]
      rfl

theorem countP_origin_eq {e' : Widget} (h : ∀ p, e'.origin p = .user ↔ e.origin p = .user)
    (decided : Decisions)
    : decided.countP (e'.origin ·.1 == .user) = decided.countP (e.origin ·.1 == .user) ∧
        decided.countP (e'.origin ·.1 != .user) = decided.countP (e.origin ·.1 != .user) := by
  constructor
  . apply List.countP_congr
    intro decision _
    rw [beq_iff_eq, beq_iff_eq, h]
  . apply List.countP_congr
    intro decision _
    rw [bne_iff_ne, bne_iff_ne, ne_eq, ne_eq, h]

theorem foldl_write_of_typed {decided : Decisions} (t : Tally)
    (htyped : ∀ decision ∈ decided, Typed e.kind decision.1 decision.2)
    : decided.foldl write (e, t)
        =
      ({ e with store := decided.foldl PropertyStore.settle e.store },
        { t with
          applied := t.applied + decided.countP (e.origin ·.1 != .user)
          skippedUserSet := t.skippedUserSet + decided.countP (e.origin ·.1 == .user) }) := by
  induction decided generalizing e t with
  | nil => rfl
  | cons decision decided ih =>
    rw [List.forall_mem_cons] at htyped
    have huser : ∀ p, ({ e with store := e.store.settle decision } : Widget).origin p = .user ↔
        e.origin p = .user := fun p => e.store.origin_settle_eq_user_iff decision
    have hcount := countP_origin_eq huser decided
    rw [List.foldl_cons, write_of_typed t htyped.1]
    refine (ih (e := { e with store := e.store.settle decision }) _ htyped.2).trans ?_
    rw [hcount.1, hcount.2, List.foldl_cons, List.countP_cons, List.countP_cons]
    by_cases h : e.origin decision.1 = .user
    . simp [h, Nat.add_assoc, Nat.add_comm 1]
    . simp [h, Nat.add_assoc, Nat.add_comm 1]

theorem declared_of_gives {registry : Registry} {d : Declaration}
    {resolve? : PropertyName → Option PropertyDescriptor}
    (hresolve : ∀ name property, resolve? name = some property →
      Registry.resolveName? e name = some property)
    (h : Gives registry resolve? p d value)
    : ∃ property, e.property? property.name = some property ∧ property.name = p ∧
        valueFor d.value property = .ok value := by
  rcases h with ⟨property, hproperty, hname, hvalue⟩
  have hdeclared := Widget.property?_of_resolveName? (hresolve _ _ hproperty)
  exact ⟨property, hdeclared, hname, hvalue⟩

theorem resolveName?_of_resolveInherited? (name : PropertyName) (property : PropertyDescriptor)
    (h : Registry.resolveInherited? e name = some property)
    : Registry.resolveName? e name = some property :=
  (Option.filter_eq_some_iff.1 h).1

theorem declared_decisions {registry : Registry} {direct pool : List Declaration}
    {decision : String × Option Value} (h : decision ∈ decisions registry direct pool e)
    : ∃ (d : Declaration) (property : PropertyDescriptor),
        e.property? property.name = some property ∧ property.name = decision.1 ∧
          valueFor d.value property = .ok decision.2 := by
  rcases mem_settle h with ⟨item, hitem, hvalue⟩
  rcases List.mem_append.1 hitem with hitem | hitem
  . rcases List.mem_map.1 hitem with ⟨d, _, heq⟩
    rw [← heq] at hvalue
    exact ⟨d, declared_of_gives (fun _ _ h => h) (value?_directVerdict_eq_some_iff.1 hvalue)⟩
  . rcases List.mem_map.1 hitem with ⟨d, _, heq⟩
    rw [← heq] at hvalue
    exact ⟨d, declared_of_gives resolveName?_of_resolveInherited?
      (value?_inheritedVerdict_eq_some_iff.1 hvalue)⟩

theorem typed_decisions {registry : Registry} {direct pool : List Declaration}
    : ∀ decision ∈ decisions registry direct pool e, Typed e.kind decision.1 decision.2 := by
  intro decision hmem v hv
  rcases declared_decisions hmem with ⟨d, property, hdeclared, hname, hvalue⟩
  rw [hv] at hvalue
  rw [← hname]
  exact ⟨property, hdeclared, Widget.isOf_of_valueFor hdeclared hvalue⟩

theorem styleElement_eq_settle (registry : Registry) (direct pool : List Declaration) (e : Widget)
    : styleElement registry direct pool e
        =
      ({ e with store := (decisions registry direct pool e).foldl PropertyStore.settle e.store },
        { visited := 1
          applied := (decisions registry direct pool e).countP (e.origin ·.1 != .user)
          skippedUserSet := (decisions registry direct pool e).countP (e.origin ·.1 == .user)
          diagnostics := rejections registry direct pool e }) := by
  refine (foldl_write_of_typed _ typed_decisions).trans ?_
  rw [Nat.zero_add, Nat.zero_add]
  rfl

theorem slot?_styleElement_eq_lookup (registry : Registry) (direct pool : List Declaration)
    (e : Widget) (p : String)
    : (styleElement registry direct pool e).1.store.slot? p
        = ((decisions registry direct pool e).lookup p).elim
            (e.store.slot? p) (Slot.settle (e.store.slot? p)) := by
  rw [styleElement_eq_settle]
  exact PropertyStore.slot?_foldl_settle (nodup_settle _ _) e.store p

theorem slot?_styleElement (registry : Registry) (direct pool : List Declaration) (e : Widget)
    (p : String)
    : (styleElement registry direct pool e).1.store.slot? p
        =
      ((direct.findSome? fun d => Verdict.value? p (directVerdict registry e d)).or
        (pool.findSome? fun d => Verdict.value? p (inheritedVerdict registry e d))).elim
          (e.store.slot? p) (Slot.settle (e.store.slot? p)) := by
  have hlookup := lookup_settle (Stylable.describe e) (verdicts registry e direct pool) p
  rw [slot?_styleElement_eq_lookup]
  unfold decisions
  rw [hlookup]
  unfold verdicts
  rw [List.findSome?_append, List.findSome?_map, List.findSome?_map]
  rfl

end Write

end Cascade

end TreeStyle
