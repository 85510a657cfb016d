import TreeStyle.Proofs.Session.Invariance

/-!
This module contains how the widgets of a session come about: each was created once and then changed
step by step, by the user or by styles.
-/

namespace TreeStyle

inductive Widget.Arises : Widget → Prop where
  | create (number : Nat) (kind : WidgetKind) : Arises { number, kind }
  | setStyleId {w : Widget} (h : w.Arises) (id : String) : Arises (w.setStyleId id)
  | addClass {w : Widget} (h : w.Arises) (name : String) : Arises (w.addClass name)
  | removeClass {w : Widget} (h : w.Arises) (name : String) : Arises (w.removeClass name)
  | set {w w' : Widget} (h : w.Arises) {p : String} {v : Value} (hset : w.set p v = .ok w') :
    Arises w'
  | clear {w : Widget} (h : w.Arises) (p : String) : Arises (w.clear p)
  | setStyle {w w' : Widget} (h : w.Arises) {p : String} {v : Value}
    (hset : w.setStyle? p v = some w') : Arises w'
  | clearStyle {w : Widget} (h : w.Arises) (p : String) : Arises (w.clearStyle p)
  | clearStyles {w : Widget} (h : w.Arises) : Arises w.clearStyles

namespace Widget.Arises

variable {w : Widget}

theorem distinct (h : w.Arises) : w.store.Distinct := by
  induction h with
  | create number kind => exact .empty
  | setStyleId _ _ ih => exact ih
  | @addClass w _ name ih =>
    rw [w.store_addClass name]
    exact ih
  | removeClass _ _ ih => exact ih
  | set _ hset ih =>
    rcases set_eq_ok_iff.1 hset with ⟨_, _, _, hw'⟩
    rw [hw']
    exact ih.put _ _
  | clear _ p ih => exact ih.clear p
  | setStyle _ hset ih =>
    rcases setStyle?_eq_some_iff.1 hset with ⟨_, _, _, _, rfl⟩
    exact ih.put _ _
  | clearStyle _ p ih => exact ih.clearStyle p
  | clearStyles _ ih => exact ih.clearStyles

theorem write (h : w.Arises) (t : Tally) (decision : String × Option Value)
    : (Cascade.write (w, t) decision).1.Arises := by
  rcases decision with ⟨q, value⟩
  unfold Cascade.write
  dsimp only
  split
  . exact h
  . split
    . exact h.clearStyle q
    . split
      . next hset => exact h.setStyle hset
      . exact h

theorem foldl_write (h : w.Arises) (t : Tally) (decided : Cascade.Decisions)
    : (decided.foldl Cascade.write (w, t)).1.Arises := by
  induction decided generalizing w t with
  | nil => exact h
  | cons decision decided ih =>
    rw [List.foldl_cons]
    exact ih (h.write t decision) _

end Widget.Arises

theorem Widget.kept_arises : Kept (fun _ _ _ => True) Arises where
  create := .create
  setStyleId := .setStyleId
  addClass := .addClass
  removeClass := .removeClass
  set h _ _ _ hset := h.set hset
  clear := .clear
  setStyle h _ _ _ hset := h.setStyle hset
  clearStyle := .clearStyle
  style h _ _ _ := h.foldl_write _ _
  clearStyles := .clearStyles

def Forest.Arises (f : Forest) : Prop := ∀ w ∈ f.widgets, w.Arises

namespace Session

variable {s : Session}

theorem arises_run (hs : s.forest.Arises) (hnumbered : s.forest.Numbered) (ops : List Operation)
    : (s.run ops).forest.Arises :=
  all_run Widget.kept_arises hs hnumbered ops fun _ _ _ _ => trivial

theorem start_arises (context : StyleContext) : (start context).forest.Arises := start_all context

end Session

end TreeStyle
