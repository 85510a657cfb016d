import TreeStyle.Proofs.Cascade.Bare
import TreeStyle.Proofs.Declaration.Written
import TreeStyle.Proofs.Vendor
import TreeStyle.Reader
import TreeStyle.Sheet.Parser

/-!
This module contains what a property is set to by a string literal behind its vendor name: the text
between the quotes, with the backslashes that mark quotes and backslashes in it.
-/

namespace TreeStyle

namespace Piece

variable {quote : Char} {text : List Char}

theorem length_le_escaped (quote : Char) (text : List Char)
    : text.length ≤ (escaped quote text).length := by
  induction text with
  | nil => exact Nat.zero_le _
  | cons c text ih =>
    unfold escaped at *
    rw [List.flatMap_cons, List.length_append, List.length_cons]
    split
    . rw [List.length_cons, List.length_singleton]
      omega
    . rw [List.length_singleton]
      omega

theorem escaped_eq_iff
    : escaped quote text = text ↔ quote ∉ text ∧ '\\' ∉ text := by
  induction text with
  | nil => simp [escaped]
  | cons c text ih =>
    have hcons : escaped quote (c :: text)
        = (if c = quote ∨ c = '\\' then ['\\', c] else [c]) ++ escaped quote text :=
      List.flatMap_cons
    rw [hcons, List.mem_cons, List.mem_cons]
    by_cases hc : c = quote ∨ c = '\\'
    . rw [if_pos hc]
      have hlonger : ['\\', c] ++ escaped quote text ≠ c :: text := by
        intro heq
        have hlength := congrArg List.length heq
        have := length_le_escaped quote text
        rw [List.length_append, List.length_cons, List.length_cons, List.length_cons] at hlength
        simp only [List.length_nil] at hlength
        omega
      grind
    . rw [if_neg hc, List.singleton_append, List.cons.injEq, ih]
      grind

end Piece

def literal (quote : Char) (s : String) : String :=
  String.ofList (Piece.quoted quote s.toList).render

section Literal

variable {quote : Char} (hquote : isQuote quote = true) (s : String)

theorem toList_literal (quote : Char) (s : String)
    : (literal quote s).toList = quote :: (Piece.escaped quote s.toList ++ [quote]) :=
  String.toList_ofList

include hquote

theorem trim_literal
    : Text.trim (literal quote s).toList = (literal quote s).toList := by
  have hblank := notBlank_of_isQuote hquote
  rw [toList_literal]
  apply Text.trim_of_notBlank
  . rintro c ⟨⟩
    exact hblank
  . rw [← List.cons_append, List.getLast?_concat]
    rintro c ⟨⟩
    exact hblank

theorem unquote_literal
    : Value.unquote (literal quote s).toList = Piece.escaped quote s.toList := by
  have hwithin : Value.unquote.within (literal quote s).toList quote
      = some (Piece.escaped quote s.toList) := by
    have hfront : Text.stripFront? [quote] (literal quote s).toList
        = some (Piece.escaped quote s.toList ++ [quote]) := by
      rw [Text.stripFront?_eq_some_iff, toList_literal]
      rfl
    unfold Value.unquote.within
    rw [hfront]
    exact Text.stripBack?_eq_some_iff.2 rfl
  unfold Value.unquote
  rcases isQuote_cases hquote with rfl | rfl
  . rw [hwithin]
    rfl
  . have hdouble : Value.unquote.within (literal '\'' s).toList '"' = none := by
      rw [toList_literal]
      rfl
    rw [hdouble, hwithin]
    rfl

theorem ofText_literal
    : Value.ofText (literal quote s) .string
        = .ok (.string (String.ofList (Piece.escaped quote s.toList))) := by
  unfold Value.ofText Value.readTrimmed
  rw [trim_literal hquote]
  dsimp only
  rw [unquote_literal hquote]

theorem PropertyValue.ofText_literal
    : ofText (literal quote s) = .specified (literal quote s) := by
  unfold ofText
  rw [if_neg]
  rw [Text.eqIgnoringCase_iff]
  intro heq
  have hlist := congrArg String.toList heq
  rw [Text.toList_asciiLower, toList_literal, List.map_cons] at hlist
  have hfirst : quote.toLower = 'i' := (List.cons.inj hlist).1
  rcases isQuote_cases hquote with rfl | rfl
  . exact absurd hfirst (by decide)
  . exact absurd hfirst (by decide)

theorem Declaration.ofRaw_literal {name : String} (hname : Text.asciiLower name = name)
    : ofRaw (.plain name (literal quote s)) = ⟨name, .specified (literal quote s), false⟩ := by
  unfold ofRaw RawDeclaration.plain
  dsimp only
  rw [hname, PropertyValue.ofText_literal hquote]

theorem RawDeclaration.readable_literal {name : String} (hname : IsName name.toList)
    (hline : '\n' ∉ s.toList)
    : (plain name (literal quote s)).Readable := by
  refine ⟨[(false, .quoted quote s.toList)], ⟨hname, List.cons_ne_nil _ _, ?_, ?_, ?_⟩, ?_, rfl⟩
  . refine ⟨hquote, ?_, trivial⟩
    rintro ⟨-, hends⟩
    have hfirst : quote = ';' ∨ quote = '}' := hends
    rcases isQuote_cases hquote with rfl | rfl
    . exact absurd hfirst (by decide)
    . exact absurd hfirst (by decide)
  . exact (toList_literal quote s).trans (List.append_nil _).symm
  . intro _
    have hlower : quote.toLower ≠ 't' := by
      rcases isQuote_cases hquote with rfl | rfl <;> decide
    unfold plain
    rw [toList_literal, ← List.cons_append]
    exact splitImportant_concat hlower _
  . exact ⟨hline, by simp, trivial⟩

end Literal

namespace Style

theorem read_render_singleton {d : RawDeclaration} (h : d.Readable)
    : (read '}').run d.render = .ok ⟨[.ofRaw d]⟩ := by
  have hblock : RawDeclaration.readBlock '}' false d.render.toList = (.ok [d], []) :=
    RawDeclaration.readBlock_intercalate_render (List.forall_mem_singleton.2 h)
  exact Parser.run_eq_ok_iff.2 ⟨[], Parser.bind_eq_ok_iff.2 ⟨[d], [], hblock, rfl⟩⟩

/--
A style that gives a string property a literal can be read, and sets the property to the text
between the quotes as it is written there. That is the string if there is nothing to mark in it.
-/
theorem literal_stored {options : StyleOptions} {context : StyleContext}
    (hcontext : StyleContext.ofOptions options = .ok context)
    (hbeginning : IsName options.vendorPrefix.toList) {tree : Tree Widget} {type : String}
    (htype : type ∈ tree.value.kind.typeChain) {property : PropertyDescriptor}
    (hproperty : property ∈ tree.value.kind.properties) (hstring : property.type = .string)
    (huser : tree.value.origin property.name ≠ .user) {quote : Char}
    (hquote : isQuote quote = true) {s : String} (hline : '\n' ∉ s.toList)
    : ∃ style text,
        (read '}').run (context.registry.vendorName type property.name ++ ": " ++
          literal quote s ++ ";") = .ok style ∧
        (style.apply context tree).1.value.store.slot? property.name
          = some (.style (.string text)) ∧
        text.toList = Piece.escaped quote s.toList ∧
        (text = s ↔ quote ∉ s.toList ∧ '\\' ∉ s.toList) := by
  have hpascal := WidgetKind.isPascal_of_mem_properties hproperty
  have hresolve := Widget.resolve?_vendorName hcontext htype hproperty
  rcases StyleContext.eq_ofValid_of_ofOptions hcontext with ⟨rfl, -⟩
  have hname := Registry.isName_vendorName hbeginning (WidgetKind.isPascal_of_mem_typeChain htype)
    hpascal
  have hread := read_render_singleton (RawDeclaration.readable_literal hquote s hname hline)
  rw [RawDeclaration.render_plain,
    Declaration.ofRaw_literal hquote s (Registry.asciiLower_vendorName hpascal)] at hread
  have hvalue : Cascade.valueFor (.specified (literal quote s)) property
      = .ok (some (.string (String.ofList (Piece.escaped quote s.toList)))) := by
    unfold Cascade.valueFor
    dsimp only
    rw [hstring, ofText_literal hquote]
    rfl
  have hgives : Cascade.Gives _ (Registry.resolveName? tree.value) property.name
      ⟨(Registry.ofPrefix options.vendorPrefix).vendorName type property.name,
        .specified (literal quote s), false⟩ _ := ⟨property, hresolve, rfl, hvalue⟩
  refine ⟨_, String.ofList (Piece.escaped quote s.toList), hread, ?_, String.toList_ofList, ?_⟩
  . exact slot?_apply_root huser hgives
  . rw [← String.toList_inj, String.toList_ofList, Piece.escaped_eq_iff]

def freshLabel : Tree Widget := .node { number := 0, kind := .label } []

theorem literal_stored_label
    : ∃ style,
        (read '}').run "-xf-label-text: 'two; \"words\" ';" = .ok style ∧
        (style.apply .standard freshLabel).1.value.store.slot? "Text"
          = some (.style (.string "two; \"words\" ")) := by
  have hcontext : StyleContext.ofOptions {} = .ok .standard := rfl
  have hbeginning : IsName "-xf-".toList := by
    refine ⟨by decide, List.all_eq_true.1 (by decide), ?_⟩
    rintro c ⟨⟩
    decide
  have hproperty : WidgetKind.Properties.string "Text" false
      ∈ freshLabel.value.kind.properties := by
    decide
  have htype : "Label" ∈ freshLabel.value.kind.typeChain := by
    decide
  have hquote : isQuote '\'' = true := rfl
  have hline : '\n' ∉ "two; \"words\" ".toList := by
    decide
  rcases literal_stored hcontext hbeginning htype hproperty rfl (by decide) hquote hline with
    ⟨style, text, hread, hslot, -, hiff⟩
  have htext : StyleContext.standard.registry.vendorName "Label" "Text" ++ ": " ++
      literal '\'' "two; \"words\" " ++ ";" = "-xf-label-text: 'two; \"words\" ';" := by
    decide
  rw [hiff.2 ⟨by decide, by decide⟩] at hslot
  exact ⟨style, htext ▸ hread, hslot⟩

theorem marked_quote_not_stored
    : literal '"' "a\"b" = "\"a\\\"b\"" ∧
        ∃ style, (read '}').run ("-xf-label-text: " ++ literal '"' "a\"b" ++ ";") = .ok style ∧
          (style.apply .standard freshLabel).1.value.store.slot? "Text"
            = some (.style (.string "a\\\"b")) := by
  have hread : (read '}').run ("-xf-label-text: " ++ literal '"' "a\"b" ++ ";")
      = .ok ⟨[⟨"-xf-label-text", .specified "\"a\\\"b\"", false⟩]⟩ := by
    apply Parser.run_eq_ok_of_toOption
    decide +kernel
  refine ⟨by decide, _, hread, ?_⟩
  decide +kernel

end Style

end TreeStyle
