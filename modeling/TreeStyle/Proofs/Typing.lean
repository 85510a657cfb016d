import Mathlib.Data.List.Basic
import TreeStyle.Cascade
import TreeStyle.Widget

/-!
This module contains the types of the values that styles can give to widgets. A name resolves to a
property that the widget declares, and the value of a declaration for it has its type.
-/

namespace TreeStyle

namespace Value

def conforms : Value → ValueType → Bool
  | .enum e, .enum type => e.enum == type.name && type.members.contains e.member
  | v, type => v.isOf type

theorem isOf_of_conforms {v : Value} {type : ValueType} (h : v.conforms type = true)
    : v.isOf type = true := by
  unfold conforms at h
  split at h
  . exact (Bool.and_eq_true_iff.1 h).1
  . exact h

theorem conforms_of_readTrimmed {cs : List Char} {target : ValueType} {v : Value}
    (h : readTrimmed cs target = .ok v) : v.conforms target = true := by
  unfold readTrimmed at h
  cases target with
  | int =>
    dsimp only at h
    split at h
    . split at h
      . cases h
        rfl
      . split at h <;> cases h
    . cases h
  | string =>
    cases h
    rfl
  | enum type =>
    dsimp only at h
    split at h
    . next member hmember =>
      cases h
      simp [conforms, List.mem_of_find?_eq_some hmember]
    . cases h
  | bool | float | color | thickness =>
    dsimp only at h
    split at h
    . cases h
      rfl
    . cases h

theorem conforms_of_ofText {text : String} {target : ValueType} {v : Value}
    (h : ofText text target = .ok v) : v.conforms target = true := conforms_of_readTrimmed h

end Value

namespace WidgetKind

theorem all_properties_conforms_default (kind : WidgetKind)
    : kind.properties.all (fun property => property.default?.all (·.conforms property.type))
        = true := by
  cases kind <;> decide

theorem conforms_of_default {kind : WidgetKind} {name : String} {property : PropertyDescriptor}
    {v : Value} (h : kind.property? name = some property) (hv : property.default? = some v)
    : v.conforms property.type = true := by
  have hall := List.all_eq_true.1 (all_properties_conforms_default kind) property
    (List.mem_of_find?_eq_some h)
  rw [hv] at hall
  exact hall

theorem property?_name {kind : WidgetKind} {name : String} {property : PropertyDescriptor}
    (h : kind.property? name = some property) : kind.property? property.name = some property := by
  have hname := List.find?_some h
  rw [beq_iff_eq] at hname
  rw [hname]
  exact h

end WidgetKind

namespace Widget

variable {e : Widget} {property : PropertyDescriptor}

theorem property?_of_resolveScoped? {rest : List Char}
    (h : Registry.resolveScoped? e rest = some property)
    : e.property? property.name = some property := by
  unfold Registry.resolveScoped? at h
  split at h
  . cases h
  . dsimp only at h
    split at h
    . exact WidgetKind.property?_name h
    . cases h

theorem property?_of_resolveName? {name : PropertyName}
    (h : Registry.resolveName? e name = some property)
    : e.property? property.name = some property := by
  cases name with
  | generic row =>
    rcases List.exists_of_findSome?_eq_some h with ⟨target, _, htarget⟩
    exact WidgetKind.property?_name htarget
  | vendor rest =>
    unfold Registry.resolveName? Registry.resolveVendor? at h
    dsimp only at h
    cases hscoped : Registry.resolveScoped? e rest.toList with
    | none =>
      rw [hscoped] at h
      exact WidgetKind.property?_name h
    | some found =>
      rw [hscoped] at h
      cases h
      exact property?_of_resolveScoped? hscoped
  | unknown name => cases h

theorem conforms_of_valueFor {value : PropertyValue} {v : Value}
    (h : e.property? property.name = some property)
    (hv : Cascade.valueFor value property = .ok (some v)) : v.conforms property.type = true := by
  cases value with
  | initial =>
    apply WidgetKind.conforms_of_default h
    simpa [Cascade.valueFor] using hv
  | specified text =>
    unfold Cascade.valueFor at hv
    dsimp only at hv
    cases htext : Value.ofText text property.type with
    | error error =>
      rw [htext] at hv
      cases hv
    | ok w =>
      rw [htext] at hv
      cases hv
      exact Value.conforms_of_ofText htext

theorem isOf_of_valueFor {value : PropertyValue} {v : Value}
    (h : e.property? property.name = some property)
    (hv : Cascade.valueFor value property = .ok (some v)) : v.isOf property.type = true :=
  Value.isOf_of_conforms (conforms_of_valueFor h hv)

end Widget

end TreeStyle
