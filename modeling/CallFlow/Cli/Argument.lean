/-!
The arguments of the command line.
-/
namespace CallFlow.Cli

inductive Argument where
  | input
  | output
  | logFilter
  | logFormat
  | onUnresolved
  | help
  | version
deriving DecidableEq, Repr, Inhabited

namespace Argument

def named : List Argument := [output, logFilter, logFormat, onUnresolved, help, version]

def long? : Argument → Option String
  | input => none
  | output => some "output"
  | logFilter => some "log-filter"
  | logFormat => some "log-format"
  | onUnresolved => some "on-unresolved"
  | help => some "help"
  | version => some "version"

def short? : Argument → Option Char
  | output => some 'o'
  | help => some 'h'
  | version => some 'V'
  | _ => none

def valueName? : Argument → Option String
  | input => some "INPUT"
  | output => some "PATH"
  | logFilter => some "FILTER"
  | logFormat => some "LOG_FORMAT"
  | onUnresolved => some "ON_UNRESOLVED"
  | help => none
  | version => none

def choices : Argument → List String
  | logFormat => ["compact", "json"]
  | onUnresolved => ["truncate", "continue"]
  | _ => []

def takesValue (a : Argument) : Bool := a.valueName?.isSome

def display (a : Argument) : String :=
  let name := a.long?.map ("--" ++ ·)
  let value := a.valueName?.map fun v => "<" ++ v ++ ">"
  " ".intercalate (name.toList ++ value.toList)

def ofLong? (name : String) : Option Argument := named.find? (·.long? == some name)

def ofShort? (c : Char) : Option Argument := named.find? (·.short? == some c)

def longs : List String := named.filterMap long?

end Argument

end CallFlow.Cli
