import CallFlow.Files.Tree
import CallFlow.Diagram.Sink
import CallFlow.Main
import CallFlow.Proofs.Syntax.Path
import CallFlow.Proofs.Syntax.Fault
import CallFlow.Proofs.Functions.Redefinition
import CallFlow.Proofs.Diagram.Bytes
import CallFlow.Proofs.Functions.Builtin
import CallFlow.Proofs.Diagram.Build
import CallFlow.Proofs.Diagram.Arrows
import CallFlow.Proofs.Diagram.Sink
import CallFlow.Proofs.Functions.Names
import CallFlow.Proofs.Diagram.Render
import CallFlow.Proofs.Files.Tree
import CallFlow.Proofs.Cli.Run
import CallFlow.Proofs.Functions.History
import CallFlow.Proofs.Cli.Summary
import CallFlow.Proofs.Text.Escape
import CallFlow.Proofs.Text.Summary
import CallFlow.Proofs.Functions.Docstring
import CallFlow.Proofs.Diagram.Rename
import CallFlow.Proofs.Diagram.Selection
import CallFlow.Proofs.Diagram.Block
import CallFlow.Proofs.Diagram.Change
import CallFlow.Proofs.Text.Lexeme
import CallFlow.Proofs.Text.Tabs
import CallFlow.Proofs.Text.Margin
import CallFlow.Proofs.Text.Clean
import CallFlow.Proofs.Functions.Signature
import CallFlow.Proofs.Functions.Callers
import CallFlow.Proofs.Functions.Equality
import CallFlow.Proofs.Functions.Parameters
import CallFlow.Proofs.Syntax.Order
import CallFlow.Proofs.Syntax.Comment
import CallFlow.Proofs.Functions.Comment
import CallFlow.Proofs.Functions.LineEnd
import CallFlow.Proofs.Text.TabStop
import CallFlow.Proofs.Text.Place
import CallFlow.Proofs.Lexer.Cursor
import CallFlow.Proofs.Automaton.Kind
import CallFlow.Proofs.Automaton.State
import CallFlow.Proofs.Automaton.Row
import CallFlow.Proofs.Automaton.ErrorRow
import CallFlow.Proofs.Parser.Subtree
import CallFlow.Proofs.Parser.Run
import CallFlow.Proofs.Parser.Stack
import CallFlow.Proofs.Parser.Walk
import CallFlow.Proofs.Parser.Lex
import CallFlow.Proofs.Parser.Reduce
import CallFlow.Proofs.Parser.Recover
import CallFlow.Proofs.Parser.Engine
import CallFlow.Proofs.Parser.Source
