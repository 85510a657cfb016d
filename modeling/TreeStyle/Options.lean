import TreeStyle.Json.Parser
import TreeStyle.Number.Numeral
import TreeStyle.Property.Registry

/-!
This module contains the options of styling, their JSON form, and the context made from them.
-/

namespace TreeStyle

structure StyleOptions where
  vendorPrefix : String := "-xf-"
  caseSensitiveTypes : Bool := false
  maxDiagnostics : Nat := 256
  deriving DecidableEq, Repr

inductive OptionsError where
  | unreadable
  | badPrefix (vendorPrefix : String)
  deriving DecidableEq, Repr

def OptionsError.message? : OptionsError → Option String
  | .unreadable => none
  | .badPrefix vendorPrefix =>
    some ("Config error: vendor prefix '" ++ vendorPrefix ++ "' must start and end with '-'")

namespace StyleOptions

def isValid (options : StyleOptions) : Bool :=
  let cs := options.vendorPrefix.toList
  2 ≤ cs.length && cs.head? == some '-' && cs.getLast? == some '-'

def validate (options : StyleOptions) : Except OptionsError StyleOptions :=
  if options.isValid then .ok options else .error (.badPrefix options.vendorPrefix)

def string? : Json → Option String
  | .string text? => text?
  | _ => none

def bool? : Json → Option Bool
  | .bool b => some b
  | _ => none

def count? : Json → Option Nat
  | .number digits => do
    let n ← Numeral.wholeOfChars? digits
    if n < UInt64.size then some n else none
  | _ => none

def member? {α : Type} (members : List (Option String × Json)) (name : String)
    (decode? : Json → Option α) (missing : α) : Option α :=
  match members.filter (·.1 == some name) with
  | [] => some missing
  | [(_, value)] => decode? value
  | _ => none

def item? {α : Type} (items : List Json) (index : Nat) (decode? : Json → Option α) (missing : α) :
    Option α :=
  match items[index]? with
  | some value => decode? value
  | none => some missing

def ofJson? : Json → Option StyleOptions
  | .object members => do
    if members.any (·.1.isNone) then none
    return {
      vendorPrefix := ← member? members "vendor_prefix" string? "-xf-"
      caseSensitiveTypes := ← member? members "case_sensitive_type_selectors" bool? false
      maxDiagnostics := ← member? members "max_diagnostics" count? 256 }
  | .array items => do
    if 3 < items.length then none
    return {
      vendorPrefix := ← item? items 0 string? "-xf-"
      caseSensitiveTypes := ← item? items 1 bool? false
      maxDiagnostics := ← item? items 2 count? 256 }
  | _ => none

def ofText (json : String) : Except OptionsError StyleOptions :=
  match Json.parse? json >>= ofJson? with
  | some options => options.validate
  | none => .error .unreadable

def render (options : StyleOptions) : String :=
  "\x7b\"vendor_prefix\":" ++ Json.quote options.vendorPrefix ++
  ",\"case_sensitive_type_selectors\":" ++ toString options.caseSensitiveTypes ++
  ",\"max_diagnostics\":" ++ toString options.maxDiagnostics ++ "\x7d"

end StyleOptions

structure StyleContext where
  options : StyleOptions
  registry : Registry
  deriving DecidableEq, Repr

namespace StyleContext

def ofValid (options : StyleOptions) : StyleContext := ⟨options, .ofPrefix options.vendorPrefix⟩

def ofOptions (options : StyleOptions) : Except OptionsError StyleContext :=
  options.validate.map ofValid

def standard : StyleContext := ofValid {}

end StyleContext

end TreeStyle
