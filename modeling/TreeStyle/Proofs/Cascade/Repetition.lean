import TreeStyle.Proofs.Alike
import TreeStyle.Proofs.Cascade.Decision
import TreeStyle.Proofs.Cascade.Rank

/-!
This module contains lists in which items are repeated. A declaration that comes again after it was
taken into account decides nothing, so that the cascade makes the same of a list of declarations and
of one with repetitions. Only what it has to report may be repeated.
-/

namespace TreeStyle

/--
The list `items'` is `items` with repetitions: between its items stand some that come earlier in it,
or that were seen before.
-/
inductive Repeats {β : Type} : (seen items items' : List β) → Prop where
  | nil {seen} : Repeats seen [] []
  | next {seen items items'} {a : β} (h : Repeats (a :: seen) items items') :
    Repeats seen (a :: items) (a :: items')
  | again {seen items items'} {a : β} (ha : a ∈ seen) (h : Repeats seen items items') :
    Repeats seen items (a :: items')

namespace Repeats

variable {β γ : Type} {seen seen' items items' : List β}

theorem mono (h : Repeats seen items items') (hseen : seen ⊆ seen')
    : Repeats seen' items items' := by
  induction h generalizing seen' with
  | nil => exact .nil
  | next _ ih => exact .next (ih (List.cons_subset_cons _ hseen))
  | again ha _ ih => exact .again (hseen ha) (ih hseen)

theorem append (h : Repeats seen items items') {others others' : List β}
    (h' : Repeats seen others others') : Repeats seen (items ++ others) (items' ++ others') := by
  induction h with
  | nil => exact h'
  | next _ ih => exact .next (ih (h'.mono (List.subset_cons_self _ _)))
  | again ha _ ih => exact .again ha (ih h')

theorem map (f : β → γ) (h : Repeats seen items items')
    : Repeats (seen.map f) (items.map f) (items'.map f) := by
  induction h with
  | nil => exact .nil
  | next _ ih => exact .next ih
  | again ha _ ih => exact .again (List.mem_map_of_mem ha) ih

theorem filter (p : β → Bool) (h : Repeats seen items items')
    : Repeats (seen.filter p) (items.filter p) (items'.filter p) := by
  induction h with
  | nil => exact .nil
  | @next seen items items' a _ ih =>
    cases hp : p a with
    | false =>
      rw [List.filter_cons_of_neg (by simp [hp])] at *
      rwa [List.filter_cons_of_neg (by simp [hp])]
    | true =>
      rw [List.filter_cons_of_pos hp] at *
      rw [List.filter_cons_of_pos hp]
      exact .next ih
  | @again seen items items' a ha _ ih =>
    cases hp : p a with
    | false => rwa [List.filter_cons_of_neg (by simp [hp])]
    | true =>
      rw [List.filter_cons_of_pos hp]
      exact .again (List.mem_filter.2 ⟨ha, hp⟩) ih

theorem sublist (h : Repeats seen items items') : items.Sublist items' := by
  induction h with
  | nil => exact .slnil
  | next _ ih => exact ih.cons_cons _
  | again _ _ ih => exact ih.cons _

theorem subset (h : Repeats seen items items') : items' ⊆ items ++ seen := by
  induction h with
  | nil => exact List.nil_subset _
  | next _ ih =>
    intro b hb
    rcases List.mem_cons.1 hb with hb | hb
    . simp [hb]
    . have := ih hb
      simp only [List.mem_append, List.mem_cons] at this ⊢
      tauto
  | again ha _ ih =>
    intro b hb
    rcases List.mem_cons.1 hb with hb | hb
    . rw [hb]
      exact List.mem_append_right _ ha
    . exact ih hb

theorem any_eq (h : Repeats [] items items') (p : β → Bool) : items'.any p = items.any p := by
  have hsubset := h.subset
  rw [List.append_nil] at hsubset
  rw [Bool.eq_iff_iff, List.any_eq_true, List.any_eq_true]
  constructor
  . intro hany
    rcases hany with ⟨b, hb, hp⟩
    exact ⟨b, hsubset hb, hp⟩
  . intro hany
    rcases hany with ⟨b, hb, hp⟩
    exact ⟨b, h.sublist.subset hb, hp⟩

end Repeats

/--
Sorted copies of sorted items. The copies still to come are those of items that are still to come or
were seen, and the first copy of an item comes before the others. The first copies are in the order
of the items.
-/
structure CopiesOf {β κ : Type} (before : β → β → Prop) (before' : κ → κ → Prop) (origin : κ → β)
    (first : β → κ) (seen items : List β) (copies : List κ) : Prop where
  items_sorted : items.Pairwise before
  copies_sorted : copies.Pairwise before'
  mem : ∀ y ∈ copies, origin y ∈ seen ∨ origin y ∈ items
  best : ∀ y ∈ copies, y = first (origin y) ∧ origin y ∈ items ∨ before' (first (origin y)) y
  first_mem : ∀ x ∈ items, first x ∈ copies
  origin_first : ∀ x ∈ items, origin (first x) = x
  mono : ∀ x ∈ items, ∀ y ∈ items, before x y → before' (first x) (first y)

namespace CopiesOf

variable {β κ : Type} {before : β → β → Prop} {before' : κ → κ → Prop} {origin : κ → β}
variable {first : β → κ} {seen items : List β} {copies : List κ} {x : β} {y : κ}

theorem origin_eq (hasymm : ∀ x y, before' x y → ¬ before' y x)
    (h : CopiesOf before before' origin first seen (x :: items) (y :: copies))
    (hy : y = first (origin y)) (hmem : origin y ∈ x :: items) : origin y = x := by
  rcases List.mem_cons.1 hmem with heq | hmem'
  . exact heq
  . have hbefore : before' (first x) y := by
      rw [hy]
      exact h.mono x List.mem_cons_self _ hmem ((List.pairwise_cons.1 h.items_sorted).1 _ hmem')
    rcases List.mem_cons.1 (h.first_mem x List.mem_cons_self) with heq | hin
    . rw [heq] at hbefore
      exact absurd hbefore (hasymm _ _ hbefore)
    . have hafter := (List.pairwise_cons.1 h.copies_sorted).1 _ hin
      exact absurd hbefore (hasymm _ _ hafter)

theorem next (hasymm : ∀ x y, before' x y → ¬ before' y x)
    (h : CopiesOf before before' origin first seen (x :: items) (y :: copies))
    (hy : y = first x) : CopiesOf before before' origin first (x :: seen) items copies := by
  have hirrefl : ∀ z, ¬ before' z z := fun z hz => hasymm z z hz hz
  have hitems := List.pairwise_cons.1 h.items_sorted
  have hcopies := List.pairwise_cons.1 h.copies_sorted
  constructor
  . exact hitems.2
  . exact hcopies.2
  . intro z hz
    rcases h.mem z (List.mem_cons_of_mem _ hz) with hmem | hmem
    . exact Or.inl (List.mem_cons_of_mem _ hmem)
    . rcases List.mem_cons.1 hmem with heq | hmem
      . exact Or.inl (by simp [heq])
      . exact Or.inr hmem
  . intro z hz
    rcases h.best z (List.mem_cons_of_mem _ hz) with ⟨heq, hmem⟩ | hlater
    . refine Or.inl ⟨heq, (List.mem_cons.1 hmem).resolve_left ?_⟩
      intro hx
      rw [hx, ← hy] at heq
      have hlt := hcopies.1 z hz
      rw [heq] at hlt
      exact hirrefl y hlt
    . exact Or.inr hlater
  . intro z hz
    apply (List.mem_cons.1 (h.first_mem z (List.mem_cons_of_mem _ hz))).resolve_left
    intro heq
    have hlt := h.mono x List.mem_cons_self z (List.mem_cons_of_mem _ hz) (hitems.1 z hz)
    rw [heq, hy] at hlt
    exact hirrefl _ hlt
  . intro z hz
    exact h.origin_first z (List.mem_cons_of_mem _ hz)
  . intro z hz w hw
    exact h.mono z (List.mem_cons_of_mem _ hz) w (List.mem_cons_of_mem _ hw)

theorem again (hasymm : ∀ x y, before' x y → ¬ before' y x)
    (h : CopiesOf before before' origin first seen items (y :: copies))
    (hlater : before' (first (origin y)) y)
    : origin y ∈ seen ∧ CopiesOf before before' origin first seen items copies := by
  have hcopies := List.pairwise_cons.1 h.copies_sorted
  have hfirst : first (origin y) ∉ y :: copies := by
    intro hmem
    rcases List.mem_cons.1 hmem with heq | hmem
    . rw [heq] at hlater
      exact hasymm _ _ hlater hlater
    . exact hasymm _ _ hlater (hcopies.1 _ hmem)
  constructor
  . rcases h.mem y List.mem_cons_self with hmem | hmem
    . exact hmem
    . exact absurd (h.first_mem _ hmem) hfirst
  . refine ⟨h.items_sorted, hcopies.2, ?_, ?_, ?_, h.origin_first, h.mono⟩
    . intro z hz
      exact h.mem z (List.mem_cons_of_mem _ hz)
    . intro z hz
      exact h.best z (List.mem_cons_of_mem _ hz)
    . intro z hz
      apply (List.mem_cons.1 (h.first_mem z hz)).resolve_left
      intro heq
      rw [← heq, h.origin_first z hz] at hfirst
      exact hfirst (heq ▸ List.mem_cons_self)

theorem repeats (hasymm : ∀ x y, before' x y → ¬ before' y x)
    (h : CopiesOf before before' origin first seen items copies)
    : Repeats seen items (copies.map origin) := by
  induction copies generalizing seen items with
  | nil =>
    cases items with
    | nil => exact .nil
    | cons x items => exact absurd (h.first_mem x List.mem_cons_self) List.not_mem_nil
  | cons y copies ih =>
    rw [List.map_cons]
    rcases h.best y List.mem_cons_self with ⟨hy, hmem⟩ | hlater
    . cases items with
      | nil => cases hmem
      | cons x items =>
        have hx := h.origin_eq hasymm hy hmem
        rw [hx] at hy ⊢
        exact .next (ih (h.next hasymm hy))
    . rcases h.again hasymm hlater with ⟨hseen, hrest⟩
      exact .again hseen (ih hrest)

end CopiesOf

namespace Cascade

theorem Decisions.record_eq_self_iff {decided : Decisions} {verdict : Verdict}
    : decided.record verdict = decided
        ↔
      ∀ p value, verdict = .sets p (.ok value) → decided.decides p = true := by
  unfold record
  split
  . next p value =>
    split
    . next hdecides => simp [hdecides]
    . next hdecides => simp [hdecides]
  . next hne =>
    simp only [true_iff]
    intro p value heq
    exact absurd heq (hne p value)

theorem Decisions.decides_record {decided : Decisions} {p : String}
    (h : decided.decides p = true) (verdict : Verdict)
    : (decided.record verdict).decides p = true := by
  unfold record
  split
  . split
    . exact h
    . rw [decides_eq_true_iff] at *
      simp [h]
  . exact h

theorem Decisions.record_record (decided : Decisions) (verdict : Verdict)
    : (decided.record verdict).record verdict = decided.record verdict := by
  rw [record_eq_self_iff]
  intro p value heq
  rw [heq, record]
  split
  . assumption
  . simp [decides]

def rejection? (name : String) (decided : Decisions) : Declaration × Verdict → Option Diagnostic
  | (d, .unknown) => some ⟨name, d.property, d.value.text, .propertyNotFound d.property name⟩
  | (d, .sets property (.error error)) =>
    if decided.decides property then none
    else some ⟨name, d.property, d.value.text, .conversion error⟩
  | _ => none

theorem settle_cons (name : String) (decided : Decisions) (item : Declaration × Verdict)
    (items : List (Declaration × Verdict))
    : settle name decided (item :: items)
        =
      ((settle name (decided.record item.2) items).1,
        (rejection? name decided item).toList ++
          (settle name (decided.record item.2) items).2) := by
  rcases item with ⟨d, verdict⟩
  conv => lhs; unfold settle
  unfold rejection? Decisions.record
  cases verdict with
  | silent => rfl
  | unknown => rfl
  | sets property value =>
    cases value with
    | error error =>
      dsimp only
      split <;> rfl
    | ok value =>
      dsimp only
      split <;> rfl

/--
Nothing more can come of the declaration: what it decides is decided, and what there is to report on
it is among the diagnostics.
-/
structure TakenIn (name : String) (decided : Decisions) (diagnostics : List Diagnostic)
    (item : Declaration × Verdict) : Prop where
  record_eq : decided.record item.2 = decided
  reported : ∀ diagnostic, rejection? name decided item = some diagnostic →
    diagnostic ∈ diagnostics

section TakenIn

variable {name : String} {decided : Decisions} {diagnostics : List Diagnostic}
variable {item : Declaration × Verdict} {items items' seen : List (Declaration × Verdict)}

theorem rejection?_of_record {diagnostic : Diagnostic} {verdict : Verdict}
    (h : rejection? name (decided.record verdict) item = some diagnostic)
    : rejection? name decided item = some diagnostic := by
  unfold rejection? at *
  split
  . exact h
  . split
    . next hdecides =>
      dsimp only at h
      rw [if_pos (Decisions.decides_record hdecides verdict)] at h
      cases h
    . dsimp only at h
      split at h
      . cases h
      . exact h
  . next hunknown herror =>
    split at h
    . exact absurd rfl (hunknown _)
    . exact absurd rfl (herror _ _ _)
    . exact h

theorem TakenIn.record (h : TakenIn name decided diagnostics item) (verdict : Verdict)
    {diagnostics' : List Diagnostic} (hsubset : diagnostics ⊆ diagnostics')
    : TakenIn name (decided.record verdict) diagnostics' item := by
  constructor
  . have hrecord := h.record_eq
    rw [Decisions.record_eq_self_iff] at *
    intro p value heq
    exact Decisions.decides_record (hrecord p value heq) verdict
  . intro diagnostic hdiagnostic
    exact hsubset (h.reported diagnostic (rejection?_of_record hdiagnostic))

theorem TakenIn.self (name : String) (decided : Decisions) (diagnostics : List Diagnostic)
    (item : Declaration × Verdict)
    : TakenIn name (decided.record item.2)
        ((rejection? name decided item).toList ++ diagnostics) item := by
  constructor
  . apply Decisions.record_record
  . intro diagnostic hdiagnostic
    rw [rejection?_of_record hdiagnostic]
    simp

theorem settle_repeats (h : Repeats seen items items')
    (htaken : ∀ item ∈ seen, TakenIn name decided diagnostics item)
    : (settle name decided items').1 = (settle name decided items).1 ∧
        Repeats diagnostics (settle name decided items).2 (settle name decided items').2 := by
  induction h generalizing decided diagnostics with
  | nil => exact ⟨rfl, .nil⟩
  | @next seen items items' item _ ih =>
    have hrest := @ih (decided.record item.2)
      ((rejection? name decided item).toList ++ diagnostics) (by
        intro other hother
        rcases List.mem_cons.1 hother with heq | hother
        . rw [heq]
          apply TakenIn.self
        . exact (htaken other hother).record _ (List.subset_append_right _ _))
    rw [settle_cons, settle_cons]
    refine ⟨hrest.1, ?_⟩
    cases hrejection : rejection? name decided item with
    | none =>
      rw [hrejection] at hrest
      exact hrest.2
    | some diagnostic =>
      rw [hrejection] at hrest
      exact .next hrest.2
  | @again seen items items' item hitem _ ih =>
    have hitem := htaken item hitem
    have hrest := ih htaken
    rw [settle_cons, hitem.record_eq]
    refine ⟨hrest.1, ?_⟩
    cases hrejection : rejection? name decided item with
    | none => exact hrest.2
    | some diagnostic => exact .again (hitem.reported diagnostic hrejection) hrest.2

end TakenIn

end Cascade

structure Tally.Repeated (t t' : Tally) : Prop where
  visited_eq : t'.visited = t.visited
  applied_eq : t'.applied = t.applied
  skippedUserSet_eq : t'.skippedUserSet = t.skippedUserSet
  diagnostics : Repeats [] t.diagnostics t'.diagnostics

theorem Tally.Repeated.total {ts ts' : List Tally} (h : List.Forall₂ Tally.Repeated ts ts')
    : Tally.Repeated (.total ts) (.total ts') := by
  induction h with
  | nil => exact ⟨rfl, rfl, rfl, .nil⟩
  | cons h _ ih =>
    constructor
    . exact congrArg₂ (· + ·) h.visited_eq ih.visited_eq
    . exact congrArg₂ (· + ·) h.applied_eq ih.applied_eq
    . exact congrArg₂ (· + ·) h.skippedUserSet_eq ih.skippedUserSet_eq
    . exact h.diagnostics.append ih.diagnostics

namespace Cascade

variable {α : Type} [Stylable α] {registry : Registry} {element : α}
variable {direct direct' pool pool' : List Declaration}

theorem write_diagnostics (element : α) (t : Tally) (diagnostics : List Diagnostic)
    (decision : String × Option Value)
    : write (element, { t with diagnostics := diagnostics }) decision
        =
      ((write (element, t) decision).1,
        { (write (element, t) decision).2 with diagnostics := diagnostics }) := by
  rcases decision with ⟨property, value⟩
  unfold write
  dsimp only
  split
  . rfl
  . split
    . rfl
    . split <;> rfl

theorem foldl_write_diagnostics (decided : Decisions) (element : α) (t : Tally)
    (diagnostics : List Diagnostic)
    : decided.foldl write (element, { t with diagnostics := diagnostics })
        =
      ((decided.foldl write (element, t)).1,
        { (decided.foldl write (element, t)).2 with diagnostics := diagnostics }) := by
  induction decided generalizing element t with
  | nil => rfl
  | cons decision decided ih =>
    rw [List.foldl_cons, List.foldl_cons, write_diagnostics, ih]

theorem styleElement_eq (registry : Registry) (direct pool : List Declaration) (element : α)
    : styleElement registry direct pool element
        =
      let settled := settle (Stylable.describe element) [] (verdicts registry element direct pool)
      let written := settled.1.foldl write (element, { visited := 1 })
      (written.1, { written.2 with diagnostics := settled.2 }) :=
  foldl_write_diagnostics _ element { visited := 1 } _

theorem styleElement_repeats (registry : Registry) (element : α)
    (hdirect : Repeats [] direct direct') (hpool : Repeats [] pool pool')
    : (styleElement registry direct' pool' element).1
          = (styleElement registry direct pool element).1 ∧
        Tally.Repeated (styleElement registry direct pool element).2
          (styleElement registry direct' pool' element).2 := by
  have hverdicts : Repeats [] (verdicts registry element direct pool)
      (verdicts registry element direct' pool') := by
    have hdirect := hdirect.map fun d => (d, directVerdict registry element d)
    have hpool := hpool.map fun d => (d, inheritedVerdict registry element d)
    exact hdirect.append hpool
  have htaken : ∀ item ∈ [], TakenIn (Stylable.describe element) [] [] item := by simp
  rcases settle_repeats hverdicts htaken with ⟨hdecided, hdiagnostics⟩
  rw [styleElement_eq, styleElement_eq]
  dsimp only
  rw [hdecided]
  exact ⟨rfl, rfl, rfl, rfl, hdiagnostics⟩

theorem handDown_repeats (hdirect : Repeats [] direct direct') (hpool : Repeats [] pool pool')
    : Repeats [] (handDown registry element direct pool)
        (handDown registry element direct' pool') := by
  have hhanded : Repeats [] (direct.filter (handsDown registry element))
      (direct'.filter (handsDown registry element)) := hdirect.filter _
  unfold handDown
  dsimp only
  simp only [hhanded.any_eq]
  exact hhanded.append (hpool.filter _)

theorem run_repeats {candidates candidates' : List ElementInfo → List Candidate}
    (h : ∀ chain : List α, Repeats [] (Candidate.rank (candidates (chain.map ElementInfo.of)))
      (Candidate.rank (candidates' (chain.map ElementInfo.of))))
    (context : StyleContext) (tree : Tree α)
    : (run context candidates' tree).1 = (run context candidates tree).1 ∧
        ∃ t t' : Tally, t.Repeated t' ∧
          (run context candidates tree).2 = .ofTally context.options.maxDiagnostics t ∧
          (run context candidates' tree).2 = .ofTally context.options.maxDiagnostics t' := by
  let above : Surroundings → Surroundings → Prop := fun s s' =>
    s'.ancestors = s.ancestors ∧ (∃ path : List α, s.ancestors = path.map ElementInfo.of) ∧
      Repeats [] s.pool s'.pool
  have halike : Tree.Alike (fun (x y : α × Tally) => x.1 = y.1 ∧ x.2.Repeated y.2)
      (tree.mapDown (visit context.registry candidates) {})
      (tree.mapDown (visit context.registry candidates') {}) := by
    apply Tree.Alike.mapDown (s := above) (r := Eq)
    . intro s s' a b hs hab
      rcases hs with ⟨hancestors, ⟨path, hpath⟩, hpool⟩
      have hdirect := h ((a :: path).reverse)
      rw [List.map_reverse, List.map_cons, ← hpath] at hdirect
      rw [← hab]
      unfold visit
      dsimp only
      rw [hancestors]
      rcases styleElement_repeats context.registry a hdirect hpool with ⟨helement, htally⟩
      exact ⟨⟨helement.symm, htally⟩, rfl, ⟨a :: path, by rw [hpath, List.map_cons]⟩,
        handDown_repeats hdirect hpool⟩
    . exact ⟨rfl, ⟨[], rfl⟩, .nil⟩
    . exact .refl (fun _ => rfl) tree
  constructor
  . exact (halike.imp_of_mem fun _ _ _ _ h => h.1).map_eq.symm
  . refine ⟨_, _, Tally.Repeated.total ?_, snd_run _ _ _, snd_run _ _ _⟩
    rw [List.forall₂_map_left_iff, List.forall₂_map_right_iff]
    exact halike.toList.imp fun _ _ h => h.2

end Cascade

end TreeStyle
