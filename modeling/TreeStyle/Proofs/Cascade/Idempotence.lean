import Mathlib.Data.List.Induction
import TreeStyle.Proofs.Lookalike

/-!
This module contains the proof that styles can be applied again without effect. The slots that a
first pass writes are in the order in which a second one would write them, and neither pass changes
what the user has set.
-/

namespace TreeStyle

namespace PropertyStore

variable {s : PropertyStore} {decided : List (String × Option Value)}

def written (s : PropertyStore) (decided : List (String × Option Value)) : List (String × Slot) :=
  decided.filterMap fun decision =>
    if s.origin decision.1 = .user then none else decision.2.map (decision.1, .style ·)

def Spared (s : PropertyStore) (decided : List (String × Option Value)) (property : String) :
    Prop :=
  s.origin property = .user ∨ property ∉ decided.map (·.1)

instance : DecidablePred (s.Spared decided) :=
  fun property => inferInstanceAs (Decidable (s.origin property = .user ∨ _))

theorem not_spared_of_mem_written {entry : String × Slot} (h : entry ∈ s.written decided)
    : entry.1 ∈ decided.map (·.1) ∧ ¬s.Spared decided entry.1 := by
  rcases List.mem_filterMap.1 h with ⟨decision, hmem, hentry⟩
  split at hentry
  . cases hentry
  . next huser =>
    rcases Option.map_eq_some_iff.1 hentry with ⟨v, -, rfl⟩
    have hkey := List.mem_map_of_mem (f := (·.1)) hmem
    refine ⟨hkey, ?_⟩
    rintro (h | h)
    . exact huser h
    . exact h hkey

theorem spared_concat_iff {q : String} {value : Option Value} {p : String}
    : s.Spared (decided ++ [(q, value)]) p
        ↔
      s.Spared decided p ∧ (p = q → s.origin q = .user) := by
  unfold Spared
  by_cases hp : p = q
  . rw [hp]
    simp
    tauto
  . simp [hp]

theorem slots_foldl_settle (hnodup : (decided.map (·.1)).Nodup) (s : PropertyStore)
    : (decided.foldl settle s).slots
        = (s.written decided).reverse ++ s.slots.filter (s.Spared decided ·.1) := by
  induction decided using List.reverseRecOn with
  | nil => simp [written, Spared]
  | append_singleton decided decision ih =>
    rcases decision with ⟨q, value⟩
    rw [List.map_append, List.nodup_append] at hnodup
    rcases hnodup with ⟨hnodup, -, hnew⟩
    have huser := origin_foldl_settle_eq_user_iff (p := q) decided s
    rw [List.foldl_append, List.foldl_cons, List.foldl_nil, settle]
    by_cases hq : s.origin q = .user
    . have hwritten : s.written (decided ++ [(q, value)]) = s.written decided := by
        simp [written, hq]
      rw [if_pos (huser.2 hq), ih hnodup, hwritten]
      simp [spared_concat_iff, hq]
    . have hwritten : s.written (decided ++ [(q, value)])
          = s.written decided ++ (value.map (q, .style ·)).toList := by
        cases value <;> simp [written, hq]
      have hclear : ((decided.foldl settle s).clear q).slots
          = (decided.foldl settle s).slots.filter (·.1 != q) := rfl
      -- None of the slots that were filled before is one of this property.
      have hfilled : (s.written decided).reverse.filter (·.1 != q)
          = (s.written decided).reverse := by
        rw [List.filter_eq_self]
        intro entry hentry
        rw [bne_iff_ne]
        exact hnew _ (not_spared_of_mem_written (List.mem_reverse.1 hentry)).1 q (by simp)
      rw [if_neg (fun h => hq (huser.1 h)), hwritten, List.reverse_append]
      dsimp only
      rw [hclear, ih hnodup, List.filter_append, hfilled, List.filter_filter, List.append_assoc]
      have hreverse : (value.map (q, Slot.style ·)).toList.reverse
          = (value.map (q, Slot.style ·)).toList := by
        cases value <;> rfl
      have hspared : (fun entry : String × Slot =>
          decide (s.Spared (decided ++ [(q, value)]) entry.1)) =
            fun entry => entry.1 != q && decide (s.Spared decided entry.1) := by
        funext entry
        rw [Bool.eq_iff_iff]
        simp [spared_concat_iff, hq, and_comm]
      rw [hreverse, hspared]

theorem foldl_settle_foldl_settle (hnodup : (decided.map (·.1)).Nodup) (s : PropertyStore)
    : decided.foldl settle (decided.foldl settle s) = decided.foldl settle s := by
  have huser : ∀ p, (decided.foldl settle s).origin p = .user ↔ s.origin p = .user :=
    fun p => origin_foldl_settle_eq_user_iff decided s
  have hwritten : (decided.foldl settle s).written decided = s.written decided := by
    unfold written
    simp only [huser]
  have hspared : (decided.foldl settle s).Spared decided = s.Spared decided := by
    funext p
    unfold Spared
    rw [huser]
  have hnone : (s.written decided).reverse.filter (s.Spared decided ·.1) = [] := by
    rw [List.filter_eq_nil_iff]
    intro entry hentry
    rw [decide_eq_true_iff]
    exact (not_spared_of_mem_written (List.mem_reverse.1 hentry)).2
  have hslots : (decided.foldl settle (decided.foldl settle s)).slots
      = (decided.foldl settle s).slots := by
    rw [slots_foldl_settle hnodup, hwritten]
    simp only [hspared]
    rw [slots_foldl_settle hnodup, List.filter_append, hnone, List.nil_append, List.filter_filter]
    simp
  exact congrArg PropertyStore.mk hslots

end PropertyStore

theorem Tree.mapDown_again {α β σ : Type} {f : σ → α → β × σ} {g : β → α}
    (h : ∀ s a, f s (g (f s a).1) = f s a) (s : σ) (t : Tree α)
    : mapDown f s ((mapDown f s t).map g) = mapDown f s t := by
  induction t generalizing s with
  | node a ts ih =>
    rw [mapDown_node, map_node, mapDown_node, h, List.map_map, List.map_map]
    congr 1
    apply List.map_congr_left
    intro t ht
    exact ih t ht _

namespace Cascade

theorem styleElement_again (registry : Registry) (direct pool : List Declaration) (w : Widget)
    : styleElement registry direct pool (styleElement registry direct pool w).1
        = styleElement registry direct pool w := by
  have hnodup : ((decisions registry direct pool w).map (·.1)).Nodup := nodup_settle _ _
  have hlookalike := lookalike_styleElement registry direct pool w
  have hstyled := styleElement_eq_settle registry direct pool w
  apply Prod.ext
  . rw [styleElement_eq_settle, hlookalike.decisions_eq, hstyled]
    dsimp only
    rw [PropertyStore.foldl_settle_foldl_settle hnodup]
  . apply hlookalike.snd_styleElement_eq
    intro p
    rw [hstyled]
    exact PropertyStore.origin_foldl_settle_eq_user_iff _ _

theorem visit_again (registry : Registry) (candidates : List ElementInfo → List Candidate)
    (above : Surroundings) (w : Widget)
    : visit registry candidates above (visit registry candidates above w).1.1
        = visit registry candidates above w := by
  have hlookalike := lookalike_styleElement registry
    (Candidate.rank (candidates (ElementInfo.of w :: above.ancestors).reverse)) above.pool w
  apply Prod.ext
  . unfold visit
    dsimp only
    rw [hlookalike.elementInfo_eq]
    apply styleElement_again
  . exact hlookalike.visit_eq registry candidates above

theorem run_again (context : StyleContext) (candidates : List ElementInfo → List Candidate)
    (tree : Tree Widget)
    : run context candidates (run context candidates tree).1 = run context candidates tree := by
  unfold run
  dsimp only
  rw [Tree.mapDown_again (visit_again context.registry candidates)]

end Cascade

/--
A sheet or a style that is applied again right away changes nothing, and reports the same.
-/
theorem apply_idempotent (sheet : StyleSheet) (style : Style) (context : StyleContext)
    (tree : Tree Widget)
    : sheet.apply context (sheet.apply context tree).1 = sheet.apply context tree ∧
        style.apply context (style.apply context tree).1 = style.apply context tree :=
  ⟨Cascade.run_again context _ tree, Cascade.run_again context _ tree⟩

end TreeStyle
