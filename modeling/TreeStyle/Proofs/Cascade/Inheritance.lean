import Mathlib.Data.List.Induction
import TreeStyle.Proofs.Cascade.Decision
import TreeStyle.Proofs.Cascade.Rank
import TreeStyle.Proofs.Cascade.Settling

/-!
This module contains the inheritance of declarations. Under every name an element receives the
declarations of the deepest ancestor that hands some down, those of deeper ancestors first and those
of one ancestor in the order of their ranks. One that gives a property a value counts where no
declaration that concerns the element does.
-/

namespace TreeStyle

variable {α : Type} [Stylable α]

namespace Cascade

/--
What an element tells its descendants by a name: the table knows it of a generic name, and of a
vendor name the property that it means for the element.
-/
def Inheritable (registry : Registry) (element : α) (name : String) : Prop :=
  match registry.classify name with
  | .generic row => row.inherited = true
  | .vendor rest =>
    ∃ property, Registry.resolveVendor? element rest = some property ∧ property.inherited = true
  | .unknown _ => False

theorem handsDown_eq_true_iff {registry : Registry} {element : α} {d : Declaration}
    : handsDown registry element d = true ↔ Inheritable registry element d.property := by
  unfold handsDown Inheritable PropertyName.inherited?
  cases registry.classify d.property with
  | generic row => simp
  | vendor rest => simp [Registry.resolveName?, Option.any_eq_true]
  | unknown name => simp

def surroundings (registry : Registry) (candidates : List ElementInfo → List Candidate)
    (path : List α) : Surroundings :=
  Tree.passDown (visit registry candidates) {} path

section Surroundings

variable (registry : Registry) (candidates : List ElementInfo → List Candidate)

theorem ancestors_surroundings (path : List α)
    : (surroundings registry candidates path).ancestors
        = (path.map ElementInfo.of).reverse := by
  induction path using List.reverseRecOn with
  | nil => rfl
  | append_singleton path a ih =>
    unfold surroundings at *
    rw [Tree.passDown_concat, List.map_append, List.reverse_append, ← ih]
    rfl

theorem chain_surroundings (path : List α) (a : α)
    : (ElementInfo.of a :: (surroundings registry candidates path).ancestors).reverse
        = (path ++ [a]).map ElementInfo.of := by
  rw [ancestors_surroundings, List.reverse_cons, List.reverse_reverse, List.map_append]
  rfl

theorem pool_surroundings_concat (path : List α) (a : α)
    : (surroundings registry candidates (path ++ [a])).pool
        = handDown registry a (Candidate.rank (candidates ((path ++ [a]).map ElementInfo.of)))
            (surroundings registry candidates path).pool := by
  rw [← chain_surroundings registry candidates]
  unfold surroundings
  rw [Tree.passDown_concat]
  rfl

end Surroundings

theorem value?_run {context : StyleContext} {candidates : List ElementInfo → List Candidate}
    {tree : Tree α} {position : List Nat} {above : List α} {element : α}
    (h : tree.path? position = some (above ++ [element]))
    : (run context candidates tree).1.value? position
        = some (styleElement context.registry
            (Candidate.rank (candidates ((above ++ [element]).map ElementInfo.of)))
            (surroundings context.registry candidates above).pool element).1 := by
  rw [← chain_surroundings context.registry candidates]
  unfold run
  dsimp only
  rw [Tree.value?_map, Tree.value?_mapDown h]
  rfl

theorem value?_run_eq_none {context : StyleContext} {candidates : List ElementInfo → List Candidate}
    {tree : Tree α} {position : List Nat} (h : tree.path? position = none)
    : (run context candidates tree).1.value? position = none := by
  unfold run
  dsimp only
  rw [Tree.value?_map]
  unfold Tree.value?
  rw [Tree.path?_mapDown, h]
  rfl

end Cascade

structure Inherited where
  depth : Nat
  rank : Rank
  declaration : Declaration
  deriving DecidableEq, Repr

def Inherited.Before (x y : Inherited) : Prop :=
  y.depth < x.depth ∨ x.depth = y.depth ∧ y.rank < x.rank

theorem Inherited.before_asymm (x y : Inherited) (h : x.Before y) : ¬ y.Before x := by
  intro h'
  unfold Before at h h'
  rcases h with hlt | ⟨heq, hrank⟩
  . rcases h' with hlt' | ⟨heq', _⟩ <;> omega
  . rcases h' with hlt' | ⟨_, hrank'⟩
    . omega
    . exact Rank.lt_asymm hrank hrank'

namespace Inherited

def handDown (depth : Nat) (handed : List (Rank × Declaration)) (entries : List Inherited) :
    List Inherited :=
  handed.map (fun item => ⟨depth, item.1, item.2⟩) ++
    entries.filter fun entry => !handed.any (·.2.property == entry.declaration.property)

variable {depth : Nat} {handed : List (Rank × Declaration)} {entries : List Inherited}

theorem handDown_map (registry : Registry) (element : α) (depth : Nat)
    (items : List (Rank × Declaration)) (entries : List Inherited)
    : Cascade.handDown registry element (items.map (·.2)) (entries.map (·.declaration))
        =
      (handDown depth (items.filter fun item => Cascade.handsDown registry element item.2)
        entries).map (·.declaration) := by
  unfold Cascade.handDown handDown
  dsimp only
  rw [List.filter_map, List.filter_map, List.map_append, List.map_map]
  simp only [List.any_map]
  rfl

theorem mem_handDown_iff {entry : Inherited}
    : entry ∈ handDown depth handed entries
        ↔
      (entry.depth = depth ∧ (entry.rank, entry.declaration) ∈ handed) ∨
      (entry ∈ entries ∧ ¬ handed.any (·.2.property == entry.declaration.property) = true) := by
  unfold handDown
  rw [List.mem_append, List.mem_map, List.mem_filter, Bool.not_eq_true', Bool.not_eq_true]
  apply or_congr_left
  constructor
  . intro h
    rcases h with ⟨item, hitem, heq⟩
    rw [← heq]
    exact ⟨rfl, hitem⟩
  . intro h
    rcases h with ⟨hdepth, hitem⟩
    refine ⟨(entry.rank, entry.declaration), hitem, ?_⟩
    rw [← hdepth]

theorem pairwise_handDown (hranks : handed.Pairwise fun x y => y.1 < x.1)
    (hsorted : entries.Pairwise Before) (hlt : ∀ entry ∈ entries, entry.depth < depth)
    : (handDown depth handed entries).Pairwise Before := by
  unfold handDown
  rw [List.pairwise_append, List.pairwise_map]
  refine ⟨?_, hsorted.filter _, ?_⟩
  . apply hranks.imp
    intro x y hxy
    exact Or.inr ⟨rfl, hxy⟩
  . -- What is handed down here is nearer than everything else.
    intro x hx y hy
    rcases List.mem_map.1 hx with ⟨item, _, hitem⟩
    left
    rw [← hitem]
    exact hlt y (List.mem_of_mem_filter hy)

end Inherited

namespace StyleSheet

def HandsDown (sheet : StyleSheet) (context : StyleContext) (path : List α) (name : String)
    (depth : Nat) : Prop :=
  ∃ element rank d, path[depth]? = some element ∧
    sheet.Concerns context (path.take (depth + 1)) rank d ∧ d.property = name ∧
    Cascade.Inheritable context.registry element name

/--
The deepest element of a path that hands down declarations of that name.
-/
structure Source (sheet : StyleSheet) (context : StyleContext) (path : List α) (name : String)
    (depth : Nat) : Prop where
  handsDown : sheet.HandsDown context path name depth
  deepest : ∀ k, sheet.HandsDown context path name k → k ≤ depth

structure Pool (sheet : StyleSheet) (context : StyleContext) (path : List α) (entry : Inherited) :
    Prop where
  source : sheet.Source context path entry.declaration.property entry.depth
  concerns : sheet.Concerns context (path.take (entry.depth + 1)) entry.rank entry.declaration

variable {sheet : StyleSheet} {context : StyleContext} {path : List α} {a : α} {name : String}
variable {depth : Nat}

theorem HandsDown.depth_lt (h : sheet.HandsDown context path name depth) : depth < path.length := by
  rcases h with ⟨element, _, _, helement, _⟩
  exact (List.getElem?_eq_some_iff.1 helement).1

theorem handsDown_concat_iff (h : depth < path.length)
    : sheet.HandsDown context (path ++ [a]) name depth
        ↔
      sheet.HandsDown context path name depth := by
  unfold HandsDown
  rw [List.getElem?_append_left h, List.take_append_of_le_length h]

theorem handsDown_last_iff
    : sheet.HandsDown context (path ++ [a]) name path.length
        ↔
      ∃ rank d, sheet.Concerns context (path ++ [a]) rank d ∧ d.property = name ∧
        Cascade.Inheritable context.registry a name := by
  unfold HandsDown
  rw [List.getElem?_concat_length, List.take_of_length_le (by simp)]
  constructor
  . intro h
    rcases h with ⟨element, rank, d, helement, hd⟩
    cases helement
    exact ⟨rank, d, hd⟩
  . intro h
    rcases h with ⟨rank, d, hd⟩
    exact ⟨a, rank, d, rfl, hd⟩

theorem source_last_iff
    : sheet.Source context (path ++ [a]) name path.length
        ↔
      sheet.HandsDown context (path ++ [a]) name path.length := by
  constructor
  . intro h
    exact h.handsDown
  . intro h
    refine ⟨h, ?_⟩
    intro k hk
    have := hk.depth_lt
    rw [List.length_append, List.length_singleton] at this
    omega

theorem source_concat_iff (h : depth < path.length)
    : sheet.Source context (path ++ [a]) name depth
        ↔
      sheet.Source context path name depth ∧
        ¬ sheet.HandsDown context (path ++ [a]) name path.length := by
  constructor
  . intro hsource
    refine ⟨⟨(handsDown_concat_iff h).1 hsource.handsDown, ?_⟩, ?_⟩
    . intro k hk
      exact hsource.deepest k ((handsDown_concat_iff hk.depth_lt).2 hk)
    . -- The last element is deeper than the source.
      intro hlast
      have := hsource.deepest _ hlast
      omega
  . intro hsource
    refine ⟨(handsDown_concat_iff h).2 hsource.1.handsDown, ?_⟩
    intro k hk
    have hlt := hk.depth_lt
    rw [List.length_append, List.length_singleton] at hlt
    rcases Nat.lt_or_eq_of_le (Nat.le_of_lt_succ hlt) with hlt | heq
    . exact hsource.1.deepest k ((handsDown_concat_iff hlt).1 hk)
    . rw [heq] at hk
      exact absurd hk hsource.2

theorem pool_last_iff {entry : Inherited} (h : entry.depth = path.length)
    : sheet.Pool context (path ++ [a]) entry
        ↔
      sheet.Concerns context (path ++ [a]) entry.rank entry.declaration ∧
        Cascade.Inheritable context.registry a entry.declaration.property := by
  have htake : (path ++ [a]).take (entry.depth + 1) = path ++ [a] := by
    rw [h]
    exact List.take_of_length_le (by simp)
  constructor
  . intro hpool
    have hsource := hpool.source
    have hconcerns := hpool.concerns
    rw [htake] at hconcerns
    rw [h, source_last_iff, handsDown_last_iff] at hsource
    rcases hsource with ⟨_, _, _, _, hinheritable⟩
    exact ⟨hconcerns, hinheritable⟩
  . intro hboth
    constructor
    . rw [h, source_last_iff, handsDown_last_iff]
      exact ⟨entry.rank, entry.declaration, hboth.1, rfl, hboth.2⟩
    . rw [htake]
      exact hboth.1

theorem pool_concat_iff {entry : Inherited} (h : entry.depth < path.length)
    : sheet.Pool context (path ++ [a]) entry
        ↔
      sheet.Pool context path entry ∧
        ¬ sheet.HandsDown context (path ++ [a]) entry.declaration.property path.length := by
  have htake : (path ++ [a]).take (entry.depth + 1) = path.take (entry.depth + 1) :=
    List.take_append_of_le_length h
  constructor
  . intro hpool
    have hsource := (source_concat_iff h).1 hpool.source
    have hconcerns := hpool.concerns
    rw [htake] at hconcerns
    exact ⟨⟨hsource.1, hconcerns⟩, hsource.2⟩
  . intro hpool
    refine ⟨(source_concat_iff h).2 ⟨hpool.1.source, hpool.2⟩, ?_⟩
    rw [htake]
    exact hpool.1.concerns

theorem Pool.depth_lt {entry : Inherited} (h : sheet.Pool context path entry)
    : entry.depth < path.length := h.source.handsDown.depth_lt

theorem any_property_iff {handed : List (Rank × Declaration)}
    (hhanded : ∀ item, item ∈ handed ↔
      sheet.Concerns context (path ++ [a]) item.1 item.2 ∧
        Cascade.Inheritable context.registry a item.2.property)
    : handed.any (·.2.property == name) = true
        ↔
      sheet.HandsDown context (path ++ [a]) name path.length := by
  rw [handsDown_last_iff, List.any_eq_true]
  constructor
  . intro h
    rcases h with ⟨item, hitem, hname⟩
    rw [hhanded] at hitem
    rw [beq_iff_eq] at hname
    rw [hname] at hitem
    exact ⟨item.1, item.2, hitem.1, hname, hitem.2⟩
  . intro h
    rcases h with ⟨rank, d, hd, hname, hinheritable⟩
    refine ⟨(rank, d), ?_, by simpa using hname⟩
    rw [hhanded, hname]
    exact ⟨hd, hinheritable⟩

theorem mem_handDown_iff_pool {handed : List (Rank × Declaration)} {entries : List Inherited}
    (hhanded : ∀ item, item ∈ handed ↔
      sheet.Concerns context (path ++ [a]) item.1 item.2 ∧
        Cascade.Inheritable context.registry a item.2.property)
    (hentries : ∀ entry, entry ∈ entries ↔ sheet.Pool context path entry) (entry : Inherited)
    : entry ∈ Inherited.handDown path.length handed entries
        ↔
      sheet.Pool context (path ++ [a]) entry := by
  rw [Inherited.mem_handDown_iff, hhanded, hentries, any_property_iff hhanded]
  constructor
  . intro h
    rcases h with ⟨hdepth, h⟩ | h
    . exact (pool_last_iff hdepth).2 h
    . exact (pool_concat_iff h.1.depth_lt).2 h
  . intro h
    have hlt := h.depth_lt
    rw [List.length_append, List.length_singleton] at hlt
    rcases Nat.lt_or_eq_of_le (Nat.le_of_lt_succ hlt) with hlt | heq
    . exact Or.inr ((pool_concat_iff hlt).1 h)
    . exact Or.inl ⟨heq, (pool_last_iff heq).1 h⟩

theorem exists_sorted_pool (sheet : StyleSheet) (context : StyleContext) (path : List α)
    : ∃ entries : List Inherited,
        (Cascade.surroundings context.registry (sheet.candidates context.matcher) path).pool
          = entries.map (·.declaration) ∧
        entries.Pairwise Inherited.Before ∧
        ∀ entry, entry ∈ entries ↔ sheet.Pool context path entry := by
  induction path using List.reverseRecOn with
  | nil =>
    -- Nothing is inherited from above the root.
    refine ⟨[], rfl, List.Pairwise.nil, ?_⟩
    intro entry
    constructor
    . intro h
      cases h
    . intro h
      exact absurd h.depth_lt (Nat.not_lt_zero _)
  | append_singleton path a ih =>
    -- What is handed down at `a` comes first, and takes the place of all of the same name.
    rcases ih with ⟨entries, hpool, hsorted, hentries⟩
    rcases sheet.exists_sorted_candidates context (path ++ [a]) with ⟨items, hitems, hranks, hmem⟩
    let handed := items.filter fun item => Cascade.handsDown context.registry a item.2
    have hhanded : ∀ item, item ∈ handed ↔
        sheet.Concerns context (path ++ [a]) item.1 item.2 ∧
          Cascade.Inheritable context.registry a item.2.property := by
      intro item
      rw [List.mem_filter, hmem, Cascade.handsDown_eq_true_iff]
    refine ⟨Inherited.handDown path.length handed entries, ?_, ?_, ?_⟩
    . rw [Cascade.pool_surroundings_concat, hitems, hpool]
      exact Inherited.handDown_map context.registry a path.length items entries
    . apply Inherited.pairwise_handDown (hranks.filter _) hsorted
      intro entry hentry
      exact ((hentries entry).1 hentry).depth_lt
    . exact mem_handDown_iff_pool hhanded hentries

end StyleSheet

end TreeStyle
