import TreeStyle.Text.Ascii

/-!
This module contains the configuration of logging, and the check of filters when it is installed.
-/

namespace TreeStyle

inductive LogLevel where
  | error
  | warn
  | info
  | debug
  | trace
  deriving DecidableEq, Repr

inductive LogFormat where
  | pretty
  | compact
  | json
  deriving DecidableEq, Repr

structure LogConfig where
  level : LogLevel := .info
  format : LogFormat := .pretty
  includeLocation : Bool := false
  includeSpanEvents : Bool := false
  filter? : Option String := none
  testWriter : Bool := false
  deriving DecidableEq, Repr

inductive LoggingError where
  | invalidFilter (filter : String)
  | alreadyInstalled
  deriving DecidableEq, Repr

def LogLevel.name : LogLevel → String
  | .error => "ERROR"
  | .warn => "WARN"
  | .info => "INFO"
  | .debug => "DEBUG"
  | .trace => "TRACE"

def LogFormat.name : LogFormat → String
  | .pretty => "Pretty"
  | .compact => "Compact"
  | .json => "Json"

def LoggingError.message : LoggingError → String
  | .invalidFilter filter => "Invalid filter '" ++ filter ++ "': "
  | .alreadyInstalled => "A global subscriber is already installed: "

namespace LogConfig

def standard : LogConfig := {}

def debug : LogConfig := { level := .debug, includeLocation := true }

def trace : LogConfig := { level := .trace, includeLocation := true, includeSpanEvents := true }

def production : LogConfig := { format := .json }

def test : LogConfig := { level := .debug, format := .compact, testWriter := true }

def withFilter (config : LogConfig) (filter : String) : LogConfig :=
  { config with filter? := some filter }

def filterLevels : List String := ["off", "error", "warn", "info", "debug", "trace"]

def isFilterItem (item : List Char) : Bool :=
  match item.dropWhile (· ≠ '=') with
  | [] => true
  | _ :: level => filterLevels.contains (Text.asciiLower (String.ofList level))

def isFilter (filter : String) : Bool := (Text.splitAt ',' filter.toList).all isFilterItem

def install (config : LogConfig) (installed : Bool) : Except LoggingError Unit :=
  match config.filter?.filter (!isFilter ·) with
  | some filter => .error (.invalidFilter filter)
  | none => if installed then .error .alreadyInstalled else .ok ()

end LogConfig

end TreeStyle
