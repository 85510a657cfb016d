import TreeStyle.Proofs.Lexing
import TreeStyle.Selector

/-!
This module contains the grammar of selector lists: which tokens spell a selector.
-/

namespace TreeStyle

def Token.isName : Token → Bool
  | .ident _ => true
  | _ => false

namespace SimpleSelector

def tokens : SimpleSelector → List Token
  | .universal => [.delim '*']
  | .typeName name => [.ident name]
  | .baseType name => [.delim '^', .ident name]
  | .id name => [.delim '#', .ident name]
  | .className name => [.delim '.', .ident name]

def canFollow (s : SimpleSelector) : Bool := s.isId || s.isClass

end SimpleSelector

namespace Compound

def tokens (c : Compound) : List Token := c.flatMap (·.tokens)

structure WellFormed (c : Compound) : Prop where
  ne_nil : c ≠ []
  canFollow : ∀ s ∈ c.tail, s.canFollow = true

@[simp]
theorem tokens_cons (s : SimpleSelector) (c : Compound)
    : tokens (s :: c) = s.tokens ++ tokens c := rfl

theorem tokens_append (c d : Compound)
    : tokens (c ++ d) = c.tokens ++ d.tokens := List.flatMap_append

theorem countP_tokens_hash (c : Compound)
    : c.tokens.countP (· == .delim '#') = c.countP (·.isId) := by
  induction c with
  | nil => rfl
  | cons s c ih =>
    rw [tokens_cons, List.countP_append, List.countP_cons, ih, Nat.add_comm]
    cases s <;> rfl

theorem countP_tokens_dot (c : Compound)
    : c.tokens.countP (· == .delim '.') = c.countP (·.isClass) := by
  induction c with
  | nil => rfl
  | cons s c ih =>
    rw [tokens_cons, List.countP_append, List.countP_cons, ih, Nat.add_comm]
    cases s <;> rfl

theorem countP_tokens_isName (c : Compound)
    : c.tokens.countP Token.isName =
        c.countP (·.isId) + c.countP (·.isClass) + c.countP (·.isType) := by
  induction c with
  | nil => rfl
  | cons s c ih =>
    rw [tokens_cons, List.countP_append, ih]
    cases s <;> simp [SimpleSelector.tokens, SimpleSelector.isId, SimpleSelector.isClass,
      SimpleSelector.isType, Token.isName] <;> omega

theorem brace_notMem_tokens (c : Compound)
    : .delim '{' ∉ c.tokens := by
  induction c with
  | nil => simp [tokens]
  | cons s c ih => cases s <;> simp [SimpleSelector.tokens, ih]

inductive Starts : Token → Prop where
  | star : Starts (.delim '*')
  | caret : Starts (.delim '^')
  | hash : Starts (.delim '#')
  | dot : Starts (.delim '.')
  | ident (name : String) : Starts (.ident name)

theorem Starts.ne_space {t : Token} (ht : Starts t)
    : t ≠ .space := by
  cases ht <;> simp

theorem WellFormed.exists_starts {c : Compound} (hc : c.WellFormed)
    : ∃ t ts, c.tokens = t :: ts ∧ Starts t := by
  match c, hc.ne_nil with
  | s :: c, _ =>
    rw [tokens_cons]
    cases s with
    | universal => exact ⟨_, _, rfl, .star⟩
    | typeName name => exact ⟨_, _, rfl, .ident name⟩
    | baseType name => exact ⟨_, _, rfl, .caret⟩
    | id name => exact ⟨_, _, rfl, .hash⟩
    | className name => exact ⟨_, _, rfl, .dot⟩

end Compound

inductive Combinator.Joins : Combinator → List Token → Prop where
  | descendant : Joins .descendant [.space]
  | child {before after : List Token} (hbefore : OptionalSpace before)
      (hafter : OptionalSpace after) : Joins .child (before ++ .delim '>' :: after)

theorem Combinator.Joins.exists_cons {k : Combinator} {joint : List Token} (h : k.Joins joint)
    : ∃ t ts, joint = t :: ts ∧ (t = .space ∨ t = .delim '>') := by
  cases h with
  | descendant => exact ⟨_, _, rfl, .inl rfl⟩
  | child hbefore hafter =>
    rcases hbefore with rfl | rfl
    . exact ⟨_, _, rfl, .inr rfl⟩
    . exact ⟨_, _, rfl, .inl rfl⟩

theorem Combinator.Joins.countP {k : Combinator} {joint : List Token} (h : k.Joins joint)
    {p : Token → Bool} (hspace : p .space = false) (hchild : p (.delim '>') = false)
    : joint.countP p = 0 := by
  cases h with
  | descendant => simp [hspace]
  | child hbefore hafter => rcases hbefore with rfl | rfl <;> rcases hafter with rfl | rfl <;>
      simp [hspace, hchild]

namespace Selector

inductive Continues : List (Combinator × Compound) → List Token → Prop where
  | nil : Continues [] []
  | cons {k : Combinator} {c : Compound} {rest : List (Combinator × Compound)}
      {joint ts : List Token} (hjoint : k.Joins joint) (hc : c.WellFormed)
      (hrest : Continues rest ts) : Continues ((k, c) :: rest) (joint ++ c.tokens ++ ts)

structure Spells (s : Selector) (ts : List Token) : Prop where
  first : s.first.WellFormed
  rest : ∃ us, Continues s.rest us ∧ ts = s.first.tokens ++ us

inductive SpellsAll : List Selector → List Token → Prop where
  | last {s : Selector} {ts after : List Token} (hs : s.Spells ts) (hafter : OptionalSpace after) :
      SpellsAll [s] (ts ++ after)
  | cons {s : Selector} {list : List Selector} {ts before after us : List Token}
      (hs : s.Spells ts) (hbefore : OptionalSpace before) (hafter : OptionalSpace after)
      (hlist : SpellsAll list us) :
      SpellsAll (s :: list) (ts ++ before ++ .delim ',' :: (after ++ us))

def SpellsList (list : List Selector) (ts : List Token) : Prop :=
  ∃ before us, OptionalSpace before ∧ SpellsAll list us ∧ ts = before ++ us

theorem Continues.countP {rest : List (Combinator × Compound)} {ts : List Token}
    (h : Continues rest ts) {p : Token → Bool} (hspace : p .space = false)
    (hchild : p (.delim '>') = false)
    : ts.countP p = (Compound.tokens (rest.map (·.2)).flatten).countP p := by
  induction h with
  | nil => rfl
  | cons hjoint hc hrest ih =>
    simp [hjoint.countP hspace hchild, ih, Compound.tokens_append]

theorem Spells.countP {s : Selector} {ts : List Token} (h : s.Spells ts) {p : Token → Bool}
    (hspace : p .space = false) (hchild : p (.delim '>') = false)
    : ts.countP p = (Compound.tokens s.compounds.flatten).countP p := by
  rcases h with ⟨hfirst, us, hrest, rfl⟩
  simp [hrest.countP hspace hchild, compounds, Compound.tokens_append]

theorem Spells.specificity_eq {s : Selector} {ts : List Token} (h : s.Spells ts)
    : s.specificity =
        { ids := min 65535 (ts.count (.delim '#'))
          classes := min 65535 (ts.count (.delim '.'))
          types := min 65535
            (ts.countP Token.isName - ts.count (.delim '#') - ts.count (.delim '.')) } := by
  unfold specificity List.count
  rw [h.countP rfl rfl, h.countP rfl rfl, h.countP rfl rfl, Compound.countP_tokens_hash,
    Compound.countP_tokens_dot, Compound.countP_tokens_isName, Nat.sub_sub,
    Nat.add_sub_cancel_left]
  rfl

theorem Spells.brace_notMem {s : Selector} {ts : List Token} (h : s.Spells ts)
    : .delim '{' ∉ ts := by
  rw [← List.count_eq_zero]
  unfold List.count
  rw [h.countP rfl rfl]
  exact List.count_eq_zero.2 (Compound.brace_notMem_tokens _)

theorem SpellsAll.brace_notMem {list : List Selector} {ts : List Token} (h : SpellsAll list ts)
    : .delim '{' ∉ ts := by
  induction h with
  | last hs hafter =>
    rcases hafter with rfl | rfl <;> simp [hs.brace_notMem]
  | cons hs hbefore hafter hlist ih =>
    rcases hbefore with rfl | rfl <;> rcases hafter with rfl | rfl <;> simp [hs.brace_notMem, ih]

theorem SpellsList.brace_notMem {list : List Selector} {ts : List Token} (h : SpellsList list ts)
    : .delim '{' ∉ ts := by
  rcases h with ⟨before, us, rfl | rfl, hlist, rfl⟩ <;> simp [hlist.brace_notMem]

end Selector

end TreeStyle
