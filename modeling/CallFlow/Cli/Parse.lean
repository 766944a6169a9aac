import CallFlow.Cli.Usage
import CallFlow.Diagram.Build
import CallFlow.Log.Event
import CallFlow.Text.Utf8

/-!
Reading a command line.

Arguments are read from left to right. The value of an argument is looked at when the next argument
begins or the line ends, so a bad value is reported before what comes later. After two dashes
everything is a value.
-/
namespace CallFlow.Cli

open CallFlow.Text CallFlow.Diagram

structure Options where
  input : String
  output : Option String := none
  logFilter : String := "warn"
  logFormat : Log.Format := .compact
  policy : Policy := .truncate
deriving DecidableEq, Repr, Inhabited

structure Settings where
  input : String
  output : String
  logFilter : String
  logFormat : Log.Format
  policy : Policy
deriving DecidableEq, Repr, Inhabited

/--
The settings for given options. The output stands beside the input unless it is given.
-/
def Options.settings (o : Options) : Settings where
  input := o.input
  output := o.output.getD (o.input ++ ".txt")
  logFilter := o.logFilter
  logFormat := o.logFormat
  policy := o.policy

inductive Stop where
  | longHelp
  | shortHelp
  | version
  | refused (e : UsageError)
deriving DecidableEq, Repr, Inhabited

structure State where
  used : List Argument := []
  values : List (Argument × String) := []
  /-- The last argument, and its value if that has been read. -/
  pending : Option (Argument × Option RawText) := none
deriving DecidableEq, Repr, Inhabited

def checkValue (a : Argument) (value : RawText) : Except UsageError String :=
  if a.choices.isEmpty then
    match value.toString? with
    | some s => .ok s
    | none => .error .invalidText
  else
    match a.choices.find? (some · == value.toString?) with
    | some s => .ok s
    | none => .error (.invalidValue a value.display)

namespace State

def settle (s : State) : Except UsageError State :=
  match s.pending with
  | none => .ok s
  | some (a, none) => .error (.noValue a)
  | some (a, some value) =>
    if s.used.contains a then .error (.repeated a)
    else do
      let value ← checkValue a value
      return { used := s.used ++ [a], values := s.values ++ [(a, value)] }

/--
The arguments used, with the last one, whether its value is good or not. Of one that is used for the second
time neither use counts.
-/
def usedSoFar (s : State) : List Argument :=
  match s.pending with
  | some (a, some _) => if s.used.contains a then s.used.erase a else s.used ++ [a]
  | _ => s.used

def hasInput (s : State) : Bool :=
  s.used.contains .input || (s.pending.map (·.1)) == some .input

def awaits (s : State) : Option Argument :=
  match s.pending with
  | some (a, none) => some a
  | _ => none

end State

def await (s : State) (a : Argument) : Except Stop State := do
  let s ← s.settle.mapError .refused
  return { s with pending := some (a, none) }

def attach (s : State) (a : Argument) (value : RawText) : Except Stop State := do
  let s ← s.settle.mapError .refused
  { s with pending := some (a, some value) }.settle.mapError .refused

def readFlag (s : State) (a : Argument) (isLong : Bool) : Except Stop State := do
  let _ ← s.settle.mapError .refused
  if a = .version then throw .version
  else if isLong then throw .longHelp
  else throw .shortHelp

def unknownLong (s : State) (name : String) : Stop :=
  let similar := mostSimilar? name Argument.longs
  let meant := (similar.bind Argument.ofLong?).toList
  let used := s.usedSoFar
  .refused (.unexpected ("--" ++ name) similar similar.isNone
    (used ++ meant.filter (!used.contains ·)))

def readLong (s : State) (text : RawText) : Except Stop State :=
  let name : RawText := text.takeWhile (· != some '=')
  let value? : Option RawText := (text.dropWhile (· != some '=')).tail?
  match name.toString?.bind Argument.ofLong? with
  | none => .error (unknownLong s name.display)
  | some a =>
    if a.takesValue then
      match value? with
      | some value => attach s a value
      | none => await s a
    else
      match value? with
      | some value =>
        .error (.refused (.valueOfFlag a value.display (s.used.filter (· != .input) ++ [a])))
      | none => readFlag s a true

def readShort (s : State) (text : RawText) : Except Stop State :=
  match text with
  | [] => .ok s
  | none :: _ => .error (.refused (.unexpected ("-" ++ text.display) none true []))
  | some c :: rest =>
    match Argument.ofShort? c with
    | none => .error (.refused (.unexpected ("-" ++ c.toString) none true []))
    | some a =>
      if a.takesValue then
        match rest with
        | [] => await s a
        | some '=' :: value => attach s a value
        | value => attach s a value
      else readFlag s a false

def readInput (s : State) (text : RawText) : Except Stop State :=
  if s.hasInput then .error (.refused (.unexpected text.display none false []))
  else do
    let s ← s.settle.mapError .refused
    return { s with pending := some (.input, some text) }

def readValues (s : State) : List RawText → Except Stop State
  | [] => .ok s
  | text :: texts => do
    let s ← readInput s text
    readValues s texts

def readAll (s : State) : List RawText → Except Stop State
  | [] => .ok s
  | text :: texts =>
    match text with
    | [some '-', some '-'] => readValues s texts
    | some '-' :: some '-' :: rest => do
      let s ← readLong s rest
      readAll s texts
    | some '-' :: c :: rest => do
      let s ← readShort s (c :: rest)
      readAll s texts
    | _ =>
      match s.awaits with
      | some a => readAll { s with pending := some (a, some text) } texts
      | none => do
        let s ← readInput s text
        readAll s texts

def optionsOf (values : List (Argument × String)) (input : String) : Options where
  input := input
  output := values.lookup .output
  logFilter := (values.lookup .logFilter).getD "warn"
  logFormat := if values.lookup .logFormat = some "json" then .json else .compact
  policy := if values.lookup .onUnresolved = some "continue" then .keep else .truncate

def parse (args : List RawText) : Except Stop Options := do
  let s ← readAll {} args
  let s ← s.settle.mapError .refused
  match s.values.lookup .input with
  | some input => return optionsOf s.values input
  | none => throw (.refused (.noInput s.used))

end CallFlow.Cli
