import CallFlow.Log.Filter
import CallFlow.Text.Quoted

/-!
Events and how they are written.
-/
namespace CallFlow.Log

open CallFlow.Text

inductive Value where
  | text (s : String)
  | bare (s : String)
  | number (n : Nat)
  | truth (b : Bool)
deriving DecidableEq, Repr, Inhabited

structure Event where
  level : Level
  target : String
  message : String
  fields : List (String × Value) := []
deriving DecidableEq, Repr, Inhabited

inductive Format where
  | compact
  | json
deriving DecidableEq, Repr, Inhabited

def Format.name : Format → String
  | compact => "compact"
  | json => "json"

namespace Value

def compact : Value → String
  | text s => quote s
  | bare s => s
  | number n => toString n
  | truth b => if b then "true" else "false"

def json : Value → String
  | text s => quoteJson s
  | bare s => quoteJson s
  | number n => toString n
  | truth b => if b then "true" else "false"

end Value

namespace Event

def compact (e : Event) : String :=
  e.level.label ++ " " ++ e.target ++ ": " ++ e.message ++
    String.join (e.fields.map fun (name, value) => " " ++ name ++ "=" ++ value.compact)

def json (e : Event) : String :=
  let fields := [("level", Value.text e.level.label), ("message", .text e.message)] ++ e.fields ++
    [("target", .text e.target)]
  "\x7b" ++ ",".intercalate (fields.map fun (name, value) => quoteJson name ++ ":" ++ value.json) ++
    "\x7d"

def render (e : Event) : Format → String
  | .compact => e.compact
  | .json => e.json

end Event

def renderAll (filter : Filter) (format : Format) (events : List Event) : List String :=
  (events.filter fun e => filter.allows e.target e.level).map (·.render format)

end CallFlow.Log
