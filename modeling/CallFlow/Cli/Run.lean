import CallFlow.Cli.Parse
import CallFlow.Diagram.Writer
import CallFlow.Files.Buffer
import CallFlow.Functions.Extract
import CallFlow.Parser.Source

/-!
A run of the program.

`run` reads the command line, reads the input, builds the diagram and writes it. The output is not
touched unless there is a diagram to write. The first failure ends the run.
-/
namespace CallFlow.Cli

open CallFlow.Text CallFlow.Syntax CallFlow.Functions CallFlow.Diagram CallFlow.Log CallFlow.Files

structure Outcome where
  success : Bool
  stdout : String := ""
  stderr : String := ""
  logs : List String := []
deriving DecidableEq, Repr, Inhabited

inductive RunError where
  | usage (e : UsageError)
  | logFilter (e : FilterError)
  | read (path : String) (e : FileError)
  | parse (e : ParseError)
  | build (e : BuildError)
  | create (path : String) (e : FileError)
  | write (path : String) (e : FileError)
deriving DecidableEq, Repr, Inhabited

def RunError.message : RunError → String
  | usage e => e.message
  | logFilter e => "failed to initialise logging: invalid log filter: " ++ e.message
  | read path e => "failed to read " ++ path ++ ": " ++ e.message
  | parse e => e.message
  | build e => e.message
  | create path e => "failed to create " ++ path ++ ": " ++ e.message
  | write path e => "failed to write " ++ path ++ ": " ++ e.message

def failed (e : RunError) (logs : List String := []) : Outcome where
  success := false
  stderr := trimEnd e.message ++ "\n"
  logs := logs

def cliTarget : String := "pyseq_cli"

def extractorTarget : String := "pyseq_graph::extractor"

def builderTarget : String := "pyseq_diagram::builder"

def policyName : Policy → String
  | .truncate => "Truncate"
  | .keep => "Continue"

def configured (s : Settings) : Event where
  level := .debug
  target := cliTarget
  message := "resolved configuration"
  fields := [("input", .bare s.input), ("output", .bare s.output),
    ("log_format", .bare s.logFormat.name), ("policy", .bare (policyName s.policy))]

def noticeEvent : Notice → Event
  | .recorded r =>
    { level := .debug, target := extractorTarget, message := "recorded function"
      fields := [("function", .text r.name), ("parameters", .number r.parameters.length),
        ("documented", .truth (r.summary ≠ ""))] }
  | .replaced name =>
    { level := .debug, target := extractorTarget
      message := "redefinition replaced earlier record", fields := [("function", .text name)] }
  | .dropped caller callee e =>
    { level := .warn, target := extractorTarget
      message := "dropped call from unrecorded function"
      fields := [("caller", .text caller), ("callee", .text callee), ("error", .bare e.message)] }

def extractionEvents (s : Settings) (root : Node) (t : Table) : List Event :=
  (notices root).map noticeEvent ++
    [{ level := .debug, target := extractorTarget, message := "function extraction complete"
       fields := [("functions", .number t.size)] },
     { level := .info, target := cliTarget, message := "extracted function table"
       fields := [("functions", .number t.size), ("input", .bare s.input)] }]

def phaseEvents (main : Record) : Phase → List Event
  | .complete => []
  | .truncated callee skipped =>
    [{ level := .warn, target := builderTarget
       message := "main function calls truncated at unresolved callee"
       fields := [("main", .text main.name), ("callee", .text callee),
         ("skipped", .number skipped)] }]

def diagramEvents (main : Record) (d : Diagram) : List Event :=
  [{ level := .info, target := builderTarget, message := "selected main function"
     fields := [("main", .text main.name), ("calls", .number main.callCount)] }] ++
    phaseEvents main d.phase ++
    [{ level := .debug, target := builderTarget, message := "diagram linearized"
       fields := [("lines", .number d.lines.length)] }]

def written (s : Settings) (d : Diagram) : Event where
  level := .info
  target := cliTarget
  message := "diagram written"
  fields := [("lines", .number d.lines.length), ("output", .bare s.output)]

def summaryText (s : Settings) (d : Diagram) : String :=
  let stopped := match d.phase with
    | .complete => ""
    | .truncated callee _ => " (main calls stopped at " ++ callee ++ ")"
  "wrote " ++ toString d.lines.length ++ " diagram lines for " ++ d.main ++ " to " ++ s.output ++
    stopped ++ "\n"

def decodeText (bytes : ByteArray) : Except FileError String :=
  match String.fromUTF8? bytes with
  | some text => .ok text
  | none => .error .invalidText

def tableOf (parser : String → Syntax.Tree) (s : Settings) (source : String) :
    List Event × Except RunError Table :=
  match (parser source).check with
  | .error e => ([], .error (.parse e))
  | .ok tree =>
    let t := extract tree.root
    (extractionEvents s tree.root t, .ok t)

def diagramOf (s : Settings) (t : Table) : List Event × Except RunError Diagram :=
  match selectMain t with
  | .error e => ([], .error (.build e))
  | .ok main =>
    let d := buildFrom t s.policy main
    (diagramEvents main d, .ok d)

def analyse (parser : String → Syntax.Tree) (s : Settings) (content : Except FileError ByteArray) :
    List Event × Except RunError Diagram :=
  match content.bind decodeText with
  | .error e => ([], .error (.read s.input e))
  | .ok source =>
    match tableOf parser s source with
    | (events, .error e) => (events, .error e)
    | (events, .ok t) =>
      let (more, result) := diagramOf s t
      (events ++ more, result)

variable {m : Type → Type} [Monad m] [Storage m]

def fileWriter (handle : Storage.Handle m) : Writer (StateT (List UInt8) m) FileError where
  put := Buffer.put handle
  flush := Buffer.flush handle

def save (output : String) (d : Diagram) : m (Except RunError Unit) := do
  match ← Storage.create output with
  | .error e => return .error (.create output e)
  | .ok handle =>
    let result ← Buffer.run handle ((fileWriter handle).writeLines d.lines)
    return result.mapError (.write output)

def execute (parser : String → Syntax.Tree) (s : Settings) (filter : Filter) : m Outcome := do
  let logs := renderAll filter s.logFormat
  let (events, result) := analyse parser s (← Storage.read s.input)
  let events := configured s :: events
  match result with
  | .error e => return failed e (logs events)
  | .ok d =>
    match ← save s.output d with
    | .error e => return failed e (logs events)
    | .ok () =>
      return { success := true, stdout := summaryText s d, logs := logs (events ++ [written s d]) }

def runFrom (parser : String → Syntax.Tree) (readArgs : List RawText → Except Stop Options)
    (readFilter : String → Except FilterError Filter) (args : List RawText) : m Outcome := do
  match readArgs args with
  | .error .longHelp => return { success := true, stdout := longHelp }
  | .error .shortHelp => return { success := true, stdout := shortHelp }
  | .error .version => return { success := true, stdout := versionText }
  | .error (.refused e) => return failed (.usage e)
  | .ok o =>
    match readFilter o.logFilter with
    | .error e => return failed (.logFilter e)
    | .ok filter => execute parser o.settings filter

def run (args : List RawText) : m Outcome := runFrom Parser.parseSource parse Filter.parse args

end CallFlow.Cli
