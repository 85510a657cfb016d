import TreeStyle.Value.Conversion

/-!
This module contains the reports of the application of styles: what was done, and which declarations
were skipped because of their name or their value.
-/

namespace TreeStyle

inductive DeclarationError where
  | propertyNotFound (property element : String)
  | conversion (error : ConversionError)
  deriving DecidableEq, Repr

def DeclarationError.message : DeclarationError → String
  | .propertyNotFound property element => "Property '" ++ property ++ "' not found on " ++ element
  | .conversion error => error.message

structure Diagnostic where
  element : String
  property : String
  value : String
  error : DeclarationError
  deriving DecidableEq, Repr

structure Tally where
  visited : Nat := 0
  applied : Nat := 0
  skippedUserSet : Nat := 0
  diagnostics : List Diagnostic := []
  deriving DecidableEq, Repr

namespace Tally

def append (s t : Tally) : Tally where
  visited := s.visited + t.visited
  applied := s.applied + t.applied
  skippedUserSet := s.skippedUserSet + t.skippedUserSet
  diagnostics := s.diagnostics ++ t.diagnostics

instance : Append Tally := ⟨append⟩

def total (tallies : List Tally) : Tally := tallies.foldr (· ++ ·) {}

theorem append_def (s t : Tally)
    : s ++ t = ⟨s.visited + t.visited, s.applied + t.applied, s.skippedUserSet + t.skippedUserSet,
        s.diagnostics ++ t.diagnostics⟩ := rfl

theorem append_assoc (s t u : Tally) : s ++ t ++ u = s ++ (t ++ u) := by
  simp only [append_def, Nat.add_assoc, List.append_assoc]

theorem append_empty (t : Tally) : t ++ {} = t := by simp [append_def]

theorem empty_append (t : Tally) : {} ++ t = t := by simp [append_def]

theorem total_nil : total [] = {} := rfl

theorem total_cons (t : Tally) (ts : List Tally) : total (t :: ts) = t ++ total ts := rfl

end Tally

structure Report where
  visited : Nat := 0
  applied : Nat := 0
  skippedUserSet : Nat := 0
  diagnostics : List Diagnostic := []
  droppedDiagnostics : Nat := 0
  deriving DecidableEq, Repr

namespace Report

def push (limit : Nat) (r : Report) (d : Diagnostic) : Report :=
  if r.diagnostics.length < limit then { r with diagnostics := r.diagnostics ++ [d] }
  else { r with droppedDiagnostics := r.droppedDiagnostics + 1 }

def enter (limit : Nat) (r : Report) (t : Tally) : Report :=
  t.diagnostics.foldl (push limit) { r with
    visited := r.visited + t.visited
    applied := r.applied + t.applied
    skippedUserSet := r.skippedUserSet + t.skippedUserSet }

def ofTallies (limit : Nat) (ts : List Tally) : Report := ts.foldl (enter limit) {}

def ofTally (limit : Nat) (t : Tally) : Report where
  visited := t.visited
  applied := t.applied
  skippedUserSet := t.skippedUserSet
  diagnostics := t.diagnostics.take limit
  droppedDiagnostics := t.diagnostics.length - limit

def isClean (r : Report) : Bool := r.diagnostics.isEmpty && r.droppedDiagnostics == 0

theorem push_ofTally (limit : Nat) (t : Tally) (d : Diagnostic)
    : (ofTally limit t).push limit d
        = ofTally limit { t with diagnostics := t.diagnostics ++ [d] } := by
  unfold push ofTally
  dsimp only
  rw [List.length_take, List.length_append, List.length_singleton]
  by_cases h : t.diagnostics.length < limit
  . have hlength : (t.diagnostics ++ [d]).length ≤ limit := by
      rw [List.length_append]
      exact h
    rw [if_pos (by omega), List.take_of_length_le hlength, List.take_of_length_le (by omega),
      Nat.sub_eq_zero_of_le (by omega), Nat.sub_eq_zero_of_le (by omega)]
  . rw [if_neg (by omega), List.take_append_of_le_length (by omega), Nat.sub_add_comm (by omega)]

theorem foldl_push_ofTally (limit : Nat) (t : Tally) (ds : List Diagnostic)
    : ds.foldl (push limit) (ofTally limit t)
        = ofTally limit { t with diagnostics := t.diagnostics ++ ds } := by
  induction ds generalizing t with
  | nil => rw [List.foldl_nil, List.append_nil]
  | cons d ds ih => rw [List.foldl_cons, push_ofTally, ih, List.append_assoc, List.singleton_append]

theorem enter_ofTally (limit : Nat) (s t : Tally)
    : (ofTally limit s).enter limit t = ofTally limit (s ++ t) :=
  foldl_push_ofTally limit { s ++ t with diagnostics := s.diagnostics } t.diagnostics

theorem ofTallies_eq (limit : Nat) (ts : List Tally)
    : ofTallies limit ts = ofTally limit (.total ts) := by
  have hgeneral : ∀ s,
      ts.foldl (enter limit) (ofTally limit s) = ofTally limit (s ++ .total ts) := by
    induction ts with
    | nil =>
      intro s
      rw [List.foldl_nil, Tally.total_nil, Tally.append_empty]
    | cons t ts ih =>
      intro s
      rw [List.foldl_cons, enter_ofTally, ih, Tally.append_assoc, Tally.total_cons]
  have hempty : ofTally limit {} = {} := by simp [ofTally]
  have h := hgeneral {}
  rw [hempty, Tally.empty_append] at h
  exact h

end Report

end TreeStyle
