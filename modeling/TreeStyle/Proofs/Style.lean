import TreeStyle.Proofs.Declaration.Rereading
import TreeStyle.Reader
import TreeStyle.Sheet.Parser

/-!
This module contains the proof which bare styles are read back from their written form.
-/

namespace TreeStyle

/--
The text is made of pieces that can stand together as a value, with no line break within quotes, no
beginning of a comment where two pieces meet, and no parenthesis left open.
-/
def ValueText.Rereadable (text : String) : Prop :=
  ∃ pieces, GoesOn '}' 0 pieces ∧ Legible pieces ∧ openAfter 0 pieces = 0 ∧
    text.toList = render pieces

namespace RawDeclaration

theorem InBlock.stored {required : Bool} {ds : List RawDeclaration} (h : InBlock required ds)
    : InBlock required (ds.map fun d => (Declaration.ofRaw d).toRaw) := by
  induction h with
  | nil => exact .nil
  | cons hspelled hclosed hds ih =>
    rcases hspelled.exists_stored with ⟨pieces, hspelled', hclosed'⟩
    refine .cons hspelled' ?_ ih
    intro hsome
    apply hclosed'
    apply hclosed
    simpa using hsome

theorem SpelledBy.readable_iff {d : RawDeclaration} {pieces : List (Bool × Piece)}
    (h : d.SpelledBy pieces)
    : d.Readable ↔ ValueText.Rereadable d.value := by
  constructor
  . rintro ⟨pieces', hspelled, hlegible, hclosed⟩
    exact ⟨pieces', hspelled.goesOn, hlegible, hclosed, hspelled.value⟩
  . rintro ⟨pieces', hgoes, hlegible, hclosed, hvalue⟩
    refine ⟨pieces', ⟨h.name, ?_, hgoes, hvalue, h.plain⟩, hlegible, hclosed⟩
    rintro rfl
    exact h.value_ne_nil hvalue

end RawDeclaration

namespace Style

def toRaw (style : Style) : List RawDeclaration := style.declarations.map Declaration.toRaw

theorem render_toRaw (style : Style)
    : style.render = String.intercalate " " (style.toRaw.map (·.render)) := by
  unfold render toRaw
  rw [List.map_map]
  rfl

theorem inBlock_of_read {style : Style} {cs rest : List Char} (h : read '}' cs = (.ok style, rest))
    : RawDeclaration.InBlock false style.toRaw ∧
        ∀ d ∈ style.declarations, Declaration.ofRaw d.toRaw = d := by
  rcases Parser.bind_eq_ok_iff.1 h with ⟨ds, mid, hds, h⟩
  rcases Parser.pure_eq_ok_iff.1 h with ⟨rfl, rfl⟩
  have hstored : (ofRaw ds).toRaw = ds.map fun d => (Declaration.ofRaw d).toRaw := by
    simp [ofRaw, toRaw, Function.comp_def]
  constructor
  . rw [hstored]
    exact (RawDeclaration.inBlock_of_readBlock hds).stored
  . unfold ofRaw
    rw [List.forall_mem_map]
    intro d hd
    exact Declaration.ofRaw_toRaw_ofRaw d

theorem ofRaw_toRaw {style : Style}
    (h : ∀ d ∈ style.declarations, Declaration.ofRaw d.toRaw = d)
    : ofRaw style.toRaw = style := by
  have hmap : style.declarations.map (Declaration.ofRaw ∘ Declaration.toRaw) = style.declarations :=
    (List.map_congr_left h).trans (List.map_id _)
  unfold ofRaw toRaw
  rw [List.map_map, hmap]

theorem run_render_eq_ok_iff {style other : Style}
    : (read '}').run style.render = .ok other
        ↔
      ∃ ds rest, RawDeclaration.readBlock '}' false
        (String.intercalate " " (style.toRaw.map (·.render))).toList = (.ok ds, rest) ∧
          ofRaw ds = other := by
  rw [Parser.run_eq_ok_iff, render_toRaw]
  constructor
  . rintro ⟨rest, h⟩
    rcases Parser.bind_eq_ok_iff.1 h with ⟨ds, mid, hds, h⟩
    exact ⟨ds, mid, hds, (Parser.pure_eq_ok_iff.1 h).1⟩
  . rintro ⟨ds, rest, hds, rfl⟩
    exact ⟨rest, Parser.bind_eq_ok_iff.2 ⟨ds, rest, hds, rfl⟩⟩

/--
A style that was read from a text is read back from its written form if and only if each of its
values can be read back.
-/
theorem reread_render_iff {text : String} {style : Style} (h : (read '}').run text = .ok style)
    : (read '}').run style.render = .ok style
        ↔
      ∀ d ∈ style.declarations, ValueText.Rereadable d.value.text := by
  rcases Parser.run_eq_ok_iff.1 h with ⟨rest, hread⟩
  rcases inBlock_of_read hread with ⟨hblock, hstored⟩
  have hreadable : (∀ d ∈ style.declarations, ValueText.Rereadable d.value.text) ↔
      ∀ d ∈ style.toRaw, d.Readable := by
    rw [toRaw, List.forall_mem_map]
    refine forall₂_congr fun d hd => ?_
    rcases hblock.exists_spelledBy d.toRaw (List.mem_map_of_mem hd) with ⟨pieces, hspelled, -⟩
    exact hspelled.readable_iff.symm
  rw [hreadable, run_render_eq_ok_iff]
  constructor
  . rintro ⟨ds, rest, hds, hstyle⟩
    have hfixed : ∀ d ∈ style.toRaw, (Declaration.ofRaw d).toRaw = d := by
      unfold toRaw
      rw [List.forall_mem_map]
      exact fun d hd => congrArg Declaration.toRaw (hstored d hd)
    apply RawDeclaration.readable_of_loop hblock hfixed _ hds
    . exact congrArg declarations (hstyle.trans (ofRaw_toRaw hstored).symm)
    . intro d ds' hcons
      rw [hcons] at hblock ⊢
      rw [RawDeclaration.toList_intercalate_render]
      rcases hblock.exists_spelledBy d List.mem_cons_self with ⟨pieces, hspelled, -⟩
      exact skipSpace_of_clear (hspelled.clear_render _)
  . intro hds
    exact ⟨style.toRaw, [], RawDeclaration.readBlock_intercalate_render hds, ofRaw_toRaw hstored⟩

theorem reread_render_iff_quoted
    : (read '}').run "COLOR:'a;b'!IMPORTANT" = .ok ⟨[⟨"color", .specified "'a;b'", true⟩]⟩ ∧
        ∀ d ∈ [(⟨"color", .specified "'a;b'", true⟩ : Declaration)],
          ValueText.Rereadable d.value.text := by
  have hread : (read '}').run "COLOR:'a;b'!IMPORTANT" =
      .ok ⟨[⟨"color", .specified "'a;b'", true⟩]⟩ := by
    apply Parser.run_eq_ok_of_toOption
    decide +kernel
  refine ⟨hread, (reread_render_iff hread).1 ?_⟩
  apply Parser.run_eq_ok_of_toOption
  decide +kernel

theorem unclosed_not_reread
    : (read '}').run "a:(" = .ok ⟨[⟨"a", .specified "(", false⟩]⟩ ∧
        (read '}').run (render ⟨[⟨"a", .specified "(", false⟩]⟩) =
          .ok ⟨[⟨"a", .specified "(;", false⟩]⟩ ∧
        (read '}').run (render ⟨[⟨"a", .specified "(", false⟩]⟩) ≠
          .ok ⟨[⟨"a", .specified "(", false⟩]⟩ := by
  have hread : (read '}').run "a:(" = .ok ⟨[⟨"a", .specified "(", false⟩]⟩ := by
    apply Parser.run_eq_ok_of_toOption
    decide +kernel
  have hreread : (read '}').run (render ⟨[⟨"a", .specified "(", false⟩]⟩) =
      .ok ⟨[⟨"a", .specified "(;", false⟩]⟩ := by
    apply Parser.run_eq_ok_of_toOption
    decide +kernel
  refine ⟨hread, hreread, ?_⟩
  rw [hreread]
  decide

end Style

end TreeStyle
