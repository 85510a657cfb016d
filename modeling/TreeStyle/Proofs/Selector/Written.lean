import TreeStyle.Proofs.Lexing.Spelling
import TreeStyle.Proofs.Selector.Reading

/-!
This module contains the proof that the written form of a selector list is read back as that list.
-/

namespace TreeStyle

def Named (ts : List Token) : Prop := ∀ name, .ident name ∈ ts → IsName name.toList

theorem Lexes.named {cs rest : List Char} {ts : List Token} (h : Lexes cs ts rest)
    : Named ts := by
  induction h with
  | nil => simp [Named]
  | cons hnext ht hts ih =>
    intro name hname
    rcases List.mem_cons.1 hname with rfl | hname
    . exact isName_of_next hnext
    . exact ih name hname

namespace Named

variable {ts us : List Token}

theorem of_subset (h : Named us) (hsub : ts ⊆ us)
    : Named ts := by
  intro name hname
  exact h name (hsub hname)

theorem append_iff
    : Named (ts ++ us) ↔ Named ts ∧ Named us := by
  simp only [Named, List.mem_append]
  grind

end Named

namespace SimpleSelector

variable {s : SimpleSelector} {rest : List Char}

def characters : SimpleSelector → List Char
  | .universal => ['*']
  | .typeName name => name.toList
  | .baseType name => '^' :: name.toList
  | .id name => '#' :: name.toList
  | .className name => '.' :: name.toList

theorem toList_render (s : SimpleSelector)
    : s.render.toList = s.characters := by
  cases s <;> simp [render, characters]

theorem lexes_characters (hs : Named s.tokens) (hrest : EndsName rest)
    : Lexes (s.characters ++ rest) s.tokens rest := by
  have hname {name : String} (h : .ident name ∈ s.tokens)
      : Lexes (name.toList ++ rest) [.ident name] rest := by
    have := (hs name h).next_append hrest
    rw [String.ofList_toList] at this
    exact Lexes.single_iff.2 ⟨by simp, this⟩
  cases s with
  | universal => exact Lexes.single_iff.2 ⟨by simp, (isSign_of_mem (by decide)).next_cons rest⟩
  | typeName name => exact hname (by simp [tokens])
  | baseType name =>
    exact .cons ((isSign_of_mem (by decide)).next_cons _) (by simp) (hname (by simp [tokens]))
  | id name =>
    exact .cons ((isSign_of_mem (by decide)).next_cons _) (by simp) (hname (by simp [tokens]))
  | className name =>
    exact .cons (next_dot_append (hs name (by simp [tokens]))) (by simp)
      (hname (by simp [tokens]))

theorem clear_characters (hs : Named s.tokens)
    : Clear (s.characters ++ rest) := by
  cases s with
  | universal => exact (isSign_of_mem (by decide)).clear_cons rest
  | typeName name => exact (hs name (by simp [tokens])).clear_append
  | baseType name => exact (isSign_of_mem (by decide)).clear_cons _
  | id name => exact (isSign_of_mem (by decide)).clear_cons _
  | className name => exact ⟨rfl, by simp⟩

theorem endsName_characters (hs : s.canFollow = true)
    : EndsName (s.characters ++ rest) := by
  cases s with
  | id name => exact (isSign_of_mem (by decide)).endsName_cons _
  | className name =>
    rintro c ⟨⟩
    rfl
  | _ => cases hs

end SimpleSelector

namespace Compound

variable {c : Compound} {rest : List Char}

theorem toList_render (c : Compound)
    : c.render.toList = c.flatMap (·.characters) := by
  simp [render, String.toList_join, List.flatMap_map, SimpleSelector.toList_render]

theorem lexes_flatMap (hc : ∀ s ∈ c.tail, s.canFollow = true) (hnamed : Named c.tokens)
    (hrest : EndsName rest)
    : Lexes (c.flatMap (·.characters) ++ rest) c.tokens rest := by
  induction c with
  | nil => exact .nil
  | cons s c ih =>
    rw [tokens_cons, Named.append_iff] at hnamed
    rw [List.flatMap_cons, List.append_assoc, tokens_cons]
    have hfollow : EndsName (c.flatMap (·.characters) ++ rest) := by
      cases c with
      | nil => exact hrest
      | cons s c =>
        rw [List.flatMap_cons, List.append_assoc]
        exact SimpleSelector.endsName_characters (hc s (by simp))
    apply (SimpleSelector.lexes_characters hnamed.1 hfollow).append
    apply ih
    . intro s hs
      exact hc s (List.mem_of_mem_tail hs)
    . exact hnamed.2

theorem lexes_render (hc : c.WellFormed) (hnamed : Named c.tokens) (hrest : EndsName rest)
    : Lexes (c.render.toList ++ rest) c.tokens rest := by
  rw [toList_render]
  exact lexes_flatMap hc.canFollow hnamed hrest

theorem clear_render (hc : c.WellFormed) (hnamed : Named c.tokens)
    : Clear (c.render.toList ++ rest) := by
  rw [toList_render]
  match c, hc.ne_nil with
  | s :: c, _ =>
    rw [tokens_cons, Named.append_iff] at hnamed
    rw [List.flatMap_cons, List.append_assoc]
    exact SimpleSelector.clear_characters hnamed.1

end Compound

namespace Combinator

def tokens : Combinator → List Token
  | .descendant => [.space]
  | .child => [.space, .delim '>', .space]

theorem joins_tokens (k : Combinator)
    : k.Joins k.tokens := by
  cases k with
  | descendant => exact .descendant
  | child => exact .child (.inr rfl) (.inr rfl)

theorem toList_render_child
    : (Combinator.child.render).toList = [' ', '>', ' '] := rfl

theorem lexes_render (k : Combinator) {cs : List Char} (h : Clear cs)
    : Lexes (k.render.toList ++ cs) k.tokens cs := by
  cases k with
  | descendant => exact Lexes.single_iff.2 ⟨by simp, next_space_cons h⟩
  | child =>
    have hsign : IsSign '>' := isSign_of_mem (by decide)
    rw [toList_render_child]
    exact .cons (next_space_cons (hsign.clear_cons _)) (by simp)
      (.cons (hsign.next_cons _) (by simp)
        (Lexes.single_iff.2 ⟨by simp, next_space_cons h⟩))

theorem endsName_render (k : Combinator) (cs : List Char)
    : EndsName (k.render.toList ++ cs) := by
  cases k with
  | descendant =>
    rintro c ⟨⟩
    rfl
  | child =>
    rintro c ⟨⟩
    rfl

end Combinator

namespace Selector

def tokens (s : Selector) : List Token :=
  s.first.tokens ++ s.rest.flatMap fun (k, c) => k.tokens ++ c.tokens

structure Readable (s : Selector) : Prop where
  wellFormed : ∀ c ∈ s.compounds, c.WellFormed
  named : ∀ c ∈ s.compounds, Named c.tokens

theorem continues_tokens {rest : List (Combinator × Compound)}
    (h : ∀ pair ∈ rest, pair.2.WellFormed)
    : Continues rest (rest.flatMap fun (k, c) => k.tokens ++ c.tokens) := by
  induction rest with
  | nil => exact .nil
  | cons pair rest ih =>
    rw [List.forall_mem_cons] at h
    exact .cons pair.1.joins_tokens h.1 (ih h.2)

theorem Readable.spells {s : Selector} (h : s.Readable)
    : s.Spells s.tokens := by
  have := h.wellFormed
  simp only [compounds, List.forall_mem_cons, List.forall_mem_map] at this
  exact ⟨this.1, _, continues_tokens this.2, rfl⟩

theorem toList_render (s : Selector)
    : s.render.toList =
        s.first.render.toList ++
          s.rest.flatMap fun (k, c) => k.render.toList ++ c.render.toList := by
  simp [render, String.toList_join, List.flatMap_map]

theorem endsName_flatMap {rest : List (Combinator × Compound)} {cs : List Char}
    (hcs : EndsName cs)
    : EndsName ((rest.flatMap fun (k, c) => k.render.toList ++ c.render.toList) ++ cs) := by
  cases rest with
  | nil => exact hcs
  | cons pair rest =>
    rw [List.flatMap_cons, List.append_assoc, List.append_assoc]
    exact pair.1.endsName_render _

theorem lexes_flatMap {rest : List (Combinator × Compound)}
    (hwf : ∀ pair ∈ rest, pair.2.WellFormed) (hnamed : ∀ pair ∈ rest, Named pair.2.tokens)
    {cs : List Char} (hcs : EndsName cs)
    : Lexes ((rest.flatMap fun (k, c) => k.render.toList ++ c.render.toList) ++ cs)
        (rest.flatMap fun (k, c) => k.tokens ++ c.tokens) cs := by
  induction rest with
  | nil => exact .nil
  | cons pair rest ih =>
    rw [List.forall_mem_cons] at hwf hnamed
    rw [List.flatMap_cons, List.flatMap_cons, List.append_assoc, List.append_assoc,
      List.append_assoc]
    apply (pair.1.lexes_render (Compound.clear_render hwf.1 hnamed.1)).append
    apply (Compound.lexes_render hwf.1 hnamed.1 (endsName_flatMap hcs)).append
    exact ih hwf.2 hnamed.2

theorem Readable.lexes_render {s : Selector} (h : s.Readable) {cs : List Char} (hcs : EndsName cs)
    : Lexes (s.render.toList ++ cs) s.tokens cs := by
  rcases h with ⟨hwf, hnamed⟩
  simp only [compounds, List.forall_mem_cons, List.forall_mem_map] at hwf hnamed
  rw [toList_render, List.append_assoc]
  apply (Compound.lexes_render hwf.1 hnamed.1 (endsName_flatMap hcs)).append
  exact lexes_flatMap hwf.2 hnamed.2 hcs

theorem Readable.clear_render {s : Selector} (h : s.Readable) (cs : List Char)
    : Clear (s.render.toList ++ cs) := by
  rcases h with ⟨hwf, hnamed⟩
  simp only [compounds, List.forall_mem_cons] at hwf hnamed
  rw [toList_render, List.append_assoc]
  exact Compound.clear_render hwf.1 hnamed.1

theorem toList_renderList_cons_cons (s s' : Selector) (list : List Selector)
    : (renderList (s :: s' :: list)).toList =
        s.render.toList ++ ',' :: ' ' :: (renderList (s' :: list)).toList := by
  simp [renderList, String.intercalate_cons_cons]

theorem clear_renderList {list : List Selector} (hne : list ≠ [])
    (h : ∀ s ∈ list, s.Readable) (cs : List Char)
    : Clear ((renderList list).toList ++ cs) := by
  match list with
  | [s] => exact (h s (by simp)).clear_render cs
  | s :: s' :: list =>
    rw [toList_renderList_cons_cons, List.append_assoc]
    exact (h s (by simp)).clear_render _

theorem exists_lexes_renderList {list : List Selector} (hne : list ≠ [])
    (h : ∀ s ∈ list, s.Readable) (cs : List Char)
    : ∃ ts, SpellsAll list ts ∧
        Lexes ((renderList list).toList ++ ' ' :: '{' :: cs) ts ('{' :: cs) := by
  have hbrace : IsSign '{' := isSign_of_mem (by decide)
  have hcomma : IsSign ',' := isSign_of_mem (by decide)
  induction list with
  | nil => exact absurd rfl hne
  | cons s list ih =>
    rw [List.forall_mem_cons] at h
    match list with
    | [] =>
      have hspace : Lexes (' ' :: '{' :: cs) [.space] ('{' :: cs) :=
        Lexes.single_iff.2 ⟨by simp, next_space_cons (hbrace.clear_cons cs)⟩
      refine ⟨s.tokens ++ [.space], .last h.1.spells (.inr rfl), ?_⟩
      apply (h.1.lexes_render ?_).append hspace
      rintro c ⟨⟩
      rfl
    | s' :: list =>
      rcases ih (by simp) h.2 with ⟨ts, hspells, hts⟩
      refine ⟨_, .cons h.1.spells (.inl rfl) (.inr rfl) hspells, ?_⟩
      have hlist : Lexes (',' :: ' ' :: ((renderList (s' :: list)).toList ++ ' ' :: '{' :: cs))
          (.delim ',' :: .space :: ts) ('{' :: cs) :=
        .cons (hcomma.next_cons _) (by simp)
          (.cons (next_space_cons (clear_renderList (by simp) h.2 _)) (by simp) hts)
      rw [toList_renderList_cons_cons, List.append_assoc, List.append_nil]
      exact (h.1.lexes_render (hcomma.endsName_cons _)).append hlist

theorem readList_renderList {list : List Selector} (hne : list ≠ [])
    (h : ∀ s ∈ list, s.Readable) (cs : List Char)
    : readList ((renderList list).toList ++ ' ' :: '{' :: cs) = (.ok list, '{' :: cs) := by
  rcases exists_lexes_renderList hne h cs with ⟨ts, hspells, hts⟩
  have hbrace : IsSign '{' := isSign_of_mem (by decide)
  exact readList_eq_ok_iff.2
    ⟨ts, ⟨[], ts, .inl rfl, hspells, rfl⟩, hts, _, _, hbrace.next_cons cs, rfl⟩

theorem Continues.readable {rest : List (Combinator × Compound)} {ts : List Token}
    (h : Continues rest ts) (hnamed : Named ts)
    : ∀ pair ∈ rest, pair.2.WellFormed ∧ Named pair.2.tokens := by
  induction h with
  | nil => simp
  | cons hjoint hc hrest ih =>
    rw [Named.append_iff, Named.append_iff] at hnamed
    exact List.forall_mem_cons.2 ⟨⟨hc, hnamed.1.2⟩, ih hnamed.2⟩

theorem Spells.readable {s : Selector} {ts : List Token} (h : s.Spells ts) (hnamed : Named ts)
    : s.Readable := by
  rcases h with ⟨hfirst, us, hrest, rfl⟩
  rw [Named.append_iff] at hnamed
  have := hrest.readable hnamed.2
  constructor
  . simp only [compounds, List.forall_mem_cons, List.forall_mem_map]
    exact ⟨hfirst, fun pair hpair => (this pair hpair).1⟩
  . simp only [compounds, List.forall_mem_cons, List.forall_mem_map]
    exact ⟨hnamed.1, fun pair hpair => (this pair hpair).2⟩

theorem SpellsAll.readable {list : List Selector} {ts : List Token} (h : SpellsAll list ts)
    (hnamed : Named ts)
    : ∀ s ∈ list, s.Readable := by
  induction h with
  | last hs hafter =>
    rw [Named.append_iff] at hnamed
    simpa using hs.readable hnamed.1
  | cons hs hbefore hafter hlist ih =>
    rw [Named.append_iff, Named.append_iff] at hnamed
    refine List.forall_mem_cons.2 ⟨hs.readable hnamed.1.1, ih (hnamed.2.of_subset ?_)⟩
    simp

theorem readable_of_readList {list : List Selector} {cs rest : List Char}
    (h : readList cs = (.ok list, rest))
    : list ≠ [] ∧ ∀ s ∈ list, s.Readable := by
  rcases readList_eq_ok_iff.1 h with ⟨ts, ⟨before, us, hbefore, hlist, rfl⟩, hts, -⟩
  constructor
  . cases hlist <;> simp
  . exact hlist.readable (Named.append_iff.1 hts.named).2

end Selector

end TreeStyle
