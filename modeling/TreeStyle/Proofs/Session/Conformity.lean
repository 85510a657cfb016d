import TreeStyle.Proofs.Session.Invariance
import TreeStyle.Proofs.Vendor

/-!
This module contains what the widgets of a session store: values of the declared types, in which
only the user can name members that an enumeration does not have.
-/

namespace TreeStyle

namespace Value

theorem exists_enum_of_not_conforms {v : Value} {type : ValueType} (h : v.isOf type = true)
    (hstranger : v.conforms type = false)
    : ∃ (enumType : EnumType) (member : String), type = .enum enumType ∧
        member ∉ enumType.members ∧ v = .enum ⟨enumType.name, member⟩ := by
  unfold conforms at hstranger
  split at hstranger
  . next e enumType =>
    have hname : e.enum = enumType.name := by
      simpa [isOf] using h
    have hmember : e.member ∉ enumType.members := by
      simpa [hname] using hstranger
    refine ⟨enumType, e.member, rfl, hmember, ?_⟩
    rw [← hname]
  . cases hstranger.symm.trans h

end Value

namespace PropertyStore

theorem mem_settle {s : PropertyStore} {decision : String × Option Value} {p : String} {slot : Slot}
    (h : (p, slot) ∈ (s.settle decision).slots)
    : (p, slot) ∈ s.slots ∨ ∃ v, decision = (p, some v) ∧ slot = .style v := by
  rcases decision with ⟨q, value⟩
  unfold settle at h
  split at h
  . apply Or.inl h
  . dsimp only at h
    rcases List.mem_append.1 h with h | h
    . cases value with
      | none => cases h
      | some v =>
        cases List.mem_singleton.1 h
        exact .inr ⟨v, rfl, rfl⟩
    . apply Or.inl
      apply List.mem_of_mem_filter h

theorem mem_foldl_settle {decided : List (String × Option Value)} {s : PropertyStore} {p : String}
    {slot : Slot} (h : (p, slot) ∈ (decided.foldl settle s).slots)
    : (p, slot) ∈ s.slots ∨ ∃ v, (p, some v) ∈ decided ∧ slot = .style v := by
  induction decided generalizing s with
  | nil => apply Or.inl h
  | cons decision decided ih =>
    rw [List.foldl_cons] at h
    rcases ih h with h | ⟨v, hmem, hslot⟩
    . rcases mem_settle h with h | ⟨v, hdecision, hslot⟩
      . apply Or.inl h
      . rw [hdecision]
        exact .inr ⟨v, List.mem_cons_self, hslot⟩
    . exact .inr ⟨v, List.mem_cons_of_mem _ hmem, hslot⟩

theorem mem_of_slot?_eq_some {s : PropertyStore} {p : String} {slot : Slot}
    (h : s.slot? p = some slot)
    : (p, slot) ∈ s.slots := by
  rcases List.lookup_eq_some_iff.1 h with ⟨before, after, hslots, _⟩
  rw [hslots]
  apply List.mem_append_right before List.mem_cons_self

end PropertyStore

/--
A slot of that type. What a sheet or a style has decided belongs to the type. What was set on the
widget directly was given and has the shape of the type.
-/
inductive Slot.Sound (type : ValueType) (given : Slot → Prop) : Slot → Prop where
  | decided {v : Value} (h : v.conforms type = true) : Sound type given (.style v)
  | written {slot : Slot} (h : slot.value.isOf type = true) (hgiven : given slot) :
    Sound type given slot

namespace Widget

variable {w w' : Widget} {given : Nat → String → Slot → Prop}

def Sound (given : Nat → String → Slot → Prop) (w : Widget) : Prop :=
  ∀ p slot, (p, slot) ∈ w.store.slots →
    ∃ descriptor, w.property? p = some descriptor ∧
      slot.Sound descriptor.type (given w.number p)

namespace Sound

theorem of_subset (h : w.Sound given) (hnumber : w'.number = w.number) (hkind : w'.kind = w.kind)
    (hslots : w'.store.slots ⊆ w.store.slots)
    : w'.Sound given := by
  intro p slot hslot
  unfold Widget.property?
  rw [hnumber, hkind]
  apply h p slot (hslots hslot)

theorem put {p : String} {slot : Slot} {descriptor : PropertyDescriptor} (h : w.Sound given)
    (hproperty : w.property? p = some descriptor) (htype : slot.value.isOf descriptor.type = true)
    (hgiven : given w.number p slot)
    : Sound given { w with store := w.store.put p slot } := by
  intro q slot' hslot
  rcases List.mem_cons.1 hslot with hnew | hold
  . cases hnew
    exact ⟨descriptor, hproperty, .written htype hgiven⟩
  . apply h q slot' (List.mem_of_mem_filter hold)

theorem set {p : String} {v : Value} (h : w.Sound given) (hgiven : given w.number p (.user v))
    (hset : w.set p v = .ok w')
    : w'.Sound given := by
  rcases set_eq_ok_iff.1 hset with ⟨descriptor, hproperty, htype, hw'⟩
  rw [hw']
  exact h.put hproperty htype hgiven

theorem setStyle {p : String} {v : Value} (h : w.Sound given)
    (hgiven : given w.number p (.style v)) (hset : w.setStyle? p v = some w')
    : w'.Sound given := by
  rcases setStyle?_eq_some_iff.1 hset with ⟨descriptor, hproperty, htype, _, rfl⟩
  exact h.put hproperty htype hgiven

theorem clearStyle (h : w.Sound given) (p : String) : (w.clearStyle p).Sound given := by
  have hsubset : (w.store.clearStyle p).2.slots ⊆ w.store.slots := by
    unfold PropertyStore.clearStyle
    split
    . apply List.filter_subset_self
    . apply List.Subset.refl
  exact h.of_subset rfl rfl hsubset

theorem style (h : w.Sound given) (registry : Registry) (direct pool : List Declaration)
    : (Cascade.styleElement registry direct pool w).1.Sound given := by
  rw [Cascade.styleElement_eq_settle]
  intro p slot hslot
  rcases PropertyStore.mem_foldl_settle hslot with hold | ⟨v, hdecided, hv⟩
  . apply h p slot hold
  . rcases Cascade.declared_decisions hdecided with ⟨d, property, hdeclared, hname, hvalue⟩
    rw [hv]
    rw [hname] at hdeclared
    refine ⟨property, hdeclared, .decided ?_⟩
    rw [← hname] at hdeclared
    apply conforms_of_valueFor hdeclared hvalue

end Sound

theorem kept_sound (given : Nat → String → Slot → Prop) : Kept given (Sound given) where
  create _ _ := by
    intro p slot hslot
    cases hslot
  setStyleId h _ := h
  addClass {w} h name := by
    apply h.of_subset (w.number_addClass name) (w.kind_addClass name)
    rw [w.store_addClass name]
    exact List.Subset.refl _
  removeClass h _ := h
  set h _ _ hgiven hset := h.set hgiven hset
  clear h _ := h.of_subset rfl rfl (List.filter_subset_self _)
  setStyle h _ _ hgiven hset := h.setStyle hgiven hset
  clearStyle h p := h.clearStyle p
  style h registry direct pool := h.style registry direct pool
  clearStyles h := h.of_subset rfl rfl (List.filter_subset_self _)

def Answers (w : Widget) (p : String) : ValueType → Prop
  | .bool => (w.get? p >>= Value.bool?).isSome = true
  | .int => (w.get? p >>= Value.int?).isSome = true
  | .float => (w.get? p >>= Value.float?).isSome = true
  | .string => (w.get? p >>= Value.string?).isSome = true
  | .color => (w.get? p >>= Value.color?).isSome = true
  | .thickness => (w.get? p >>= Value.thickness?).isSome = true
  | .enum type => ∃ (α : Type) (_ : StyleEnum α),
      StyleEnum.type α = type ∧ (w.getEnum? α p).isSome = true

end Widget

namespace StyleEnum

variable {α : Type} [StyleEnum α]

theorem isSome_ofValue?_iff {e : EnumValue} (h : e.enum = (type α).name)
    : (ofValue? (α := α) (.enum e)).isSome = true ↔ e.member ∈ (type α).members := by
  unfold ofValue? ofMember?
  dsimp only
  rw [if_pos (by rw [h, type])]
  rw [List.find?_isSome, type, List.mem_map]
  simp only [beq_iff_eq]

end StyleEnum

namespace WidgetKind

def styleEnums : List EnumType := [
  StyleEnum.type TextAlignment,
  StyleEnum.type ScrollOrientation,
  StyleEnum.type ScrollBarVisibility,
  StyleEnum.type StackOrientation,
  StyleEnum.type FlowDirection]

theorem exists_styleEnum_of_mem {type : EnumType} (h : type ∈ styleEnums)
    : ∃ (α : Type) (_ : StyleEnum α), StyleEnum.type α = type := by
  simp only [styleEnums, List.mem_cons, List.not_mem_nil, or_false] at h
  rcases h with h | h | h | h | h
  . exact ⟨TextAlignment, _, h.symm⟩
  . exact ⟨ScrollOrientation, _, h.symm⟩
  . exact ⟨ScrollBarVisibility, _, h.symm⟩
  . exact ⟨StackOrientation, _, h.symm⟩
  . exact ⟨FlowDirection, _, h.symm⟩

def isStyleEnum : ValueType → Bool
  | .enum type => styleEnums.contains type
  | _ => true

theorem all_allLayers_isStyleEnum
    : allLayers.all (·.all (isStyleEnum ·.type)) = true := by
  decide

theorem exists_styleEnum {kind : WidgetKind} {p : String} {descriptor : PropertyDescriptor}
    {type : EnumType} (h : kind.property? p = some descriptor)
    (htype : descriptor.type = .enum type)
    : ∃ (α : Type) (_ : StyleEnum α), StyleEnum.type α = type := by
  have henum := of_all_allLayers all_allLayers_isStyleEnum (List.mem_of_find?_eq_some h)
  rw [htype] at henum
  apply exists_styleEnum_of_mem
  simpa [isStyleEnum] using henum

end WidgetKind

namespace Widget

variable {w : Widget} {p : String} {descriptor : PropertyDescriptor} {slot : Slot}

theorem answers_iff_conforms (hproperty : w.property? p = some descriptor)
    (hslot : w.store.slot? p = some slot) (h : slot.value.isOf descriptor.type = true)
    : w.Answers p descriptor.type ↔ slot.value.conforms descriptor.type = true := by
  have hget := get?_of_slot? hproperty hslot
  generalize slot.value = v at *
  cases htype : descriptor.type with
  | enum type =>
    rw [htype] at h
    cases v with
    | enum e =>
      have hname : e.enum = type.name := by
        simpa [Value.isOf] using h
      -- The name of the enumeration is right, so that the getter looks at the member only.
      have hmember : ∀ (α : Type) [StyleEnum α], StyleEnum.type α = type →
          ((w.getEnum? α p).isSome = true ↔ e.member ∈ type.members) := by
        intro α _ heq
        rw [← heq] at hname ⊢
        unfold getEnum?
        rw [hget]
        apply StyleEnum.isSome_ofValue?_iff hname
      have hconforms : (Value.enum e).conforms (.enum type) = true ↔ e.member ∈ type.members := by
        simp [Value.conforms, hname]
      rw [hconforms]
      constructor
      . intro hanswers
        rcases hanswers with ⟨α, _, heq, hsome⟩
        apply (hmember α heq).1 hsome
      . intro hmem
        rcases WidgetKind.exists_styleEnum hproperty htype with ⟨α, _, heq⟩
        exact ⟨α, _, heq, (hmember α heq).2 hmem⟩
    | _ => cases h
  | bool | int | float | string | color | thickness =>
    rw [htype] at h
    cases v <;> cases h
    apply iff_of_true
    . unfold Answers
      rw [hget]
      rfl
    . rfl

end Widget

namespace Session

/--
Whatever is done to widgets and applications in whatever order, what a widget stores is for a
property that it declares and has the shape of its type. The getter of the type finds it unless a
value of the enumeration that is none of its members was set on the widget directly.
-/
theorem stored_value_typed (context : StyleContext) (ops : List Operation) {w : Widget}
    (hw : w ∈ ((start context).run ops).forest.widgets) {p : String} {slot : Slot}
    (hslot : w.store.slot? p = some slot)
    : ∃ descriptor, w.property? p = some descriptor
        ∧ slot.value.isOf descriptor.type = true
        ∧ (w.Answers p descriptor.type ↔ slot.value.conforms descriptor.type = true)
        ∧ (slot.value.conforms descriptor.type = false →
            ∃ type member, descriptor.type = .enum type ∧ member ∉ type.members
              ∧ (slot = .user (.enum ⟨type.name, member⟩)
                    ∧ Operation.set w.number p (.enum ⟨type.name, member⟩) ∈ ops
                  ∨ slot = .style (.enum ⟨type.name, member⟩)
                    ∧ Operation.setStyle w.number p (.enum ⟨type.name, member⟩) ∈ ops)) := by
  have hsound := all_run (Widget.kept_sound fun n p slot => Operation.write n p slot ∈ ops)
    (start_all context) (start_numbered context) ops (fun _ _ _ hmem => hmem) w hw
  rcases hsound p slot (PropertyStore.mem_of_slot?_eq_some hslot) with
    ⟨descriptor, hproperty, hslotSound⟩
  have htype : slot.value.isOf descriptor.type = true := by
    cases hslotSound with
    | decided h => apply Value.isOf_of_conforms h
    | written h => apply h
  refine ⟨descriptor, hproperty, htype, Widget.answers_iff_conforms hproperty hslot htype, ?_⟩
  intro hstranger
  cases hslotSound with
  | decided h => cases hstranger.symm.trans h
  | written h hgiven =>
    rcases Value.exists_enum_of_not_conforms h hstranger with ⟨type, member, hdeclared, hmember, hv⟩
    refine ⟨type, member, hdeclared, hmember, ?_⟩
    cases slot with
    | user v =>
      cases hv
      exact .inl ⟨rfl, hgiven⟩
    | style v =>
      cases hv
      exact .inr ⟨rfl, hgiven⟩

namespace AlignedLabel

def build (alignment : String) : List Operation :=
  [.create .label,
    .set 0 "HorizontalTextAlignment" (.enum ⟨"TextAlignment", alignment⟩),
    .applyStyle .standard 0 ⟨[⟨"-xf-label-text", .specified "a", false⟩]⟩]

def label (alignment : String) : Widget where
  number := 0
  kind := .label
  store := ⟨[
    ("Text", .style (.string "a")),
    ("HorizontalTextAlignment", .user (.enum ⟨"TextAlignment", alignment⟩))]⟩

theorem widgets_build (alignment : String)
    : ((start .standard).run (build alignment)).forest.widgets = [label alignment] := by
  with_unfolding_all rfl

end AlignedLabel

open AlignedLabel

theorem stored_value_typed_alignedLabel
    : (label "End").Answers "HorizontalTextAlignment" (.enum (StyleEnum.type TextAlignment))
        ∧ (label "End").Answers "Text" .string := by
  have hmem : label "End" ∈ ((start .standard).run (build "End")).forest.widgets := by
    rw [widgets_build]
    apply List.mem_singleton_self
  have halignment : (label "End").store.slot? "HorizontalTextAlignment"
      = some (.user (.enum ⟨"TextAlignment", "End"⟩)) := rfl
  have htext : (label "End").store.slot? "Text" = some (.style (.string "a")) := rfl
  constructor
  . rcases stored_value_typed .standard (build "End") hmem halignment with
      ⟨descriptor, hproperty, _, hanswers, _⟩
    cases hproperty
    apply hanswers.2
    decide
  . rcases stored_value_typed .standard (build "End") hmem htext with
      ⟨descriptor, hproperty, _, hanswers, _⟩
    cases hproperty
    apply hanswers.2
    decide

theorem stranger_not_answered
    : label "Middle" ∈ ((start .standard).run (build "Middle")).forest.widgets
        ∧ (label "Middle").origin "HorizontalTextAlignment" = .user
        ∧ (label "Middle").getEnum? TextAlignment "HorizontalTextAlignment" = none := by
  rw [widgets_build]
  exact ⟨List.mem_singleton_self _, by decide, by decide⟩

end Session

end TreeStyle
