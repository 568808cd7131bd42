import Klang.Console
import Klang.Console.Arguments
import Klang.Console.Interactive
import Klang.Console.Script
import Klang.Diagnostic
import Klang.Eval
import Klang.Eval.Basic
import Klang.Eval.Builtin
import Klang.Eval.Operation
import Klang.Fault
import Klang.Main
import Klang.Node
import Klang.Node.Complaint
import Klang.Node.Outline
import Klang.Node.Parser
import Klang.Node.Reader
import Klang.Number.Decimal
import Klang.Number.Numeral
import Klang.Number.Parts
import Klang.Number.Remainder
import Klang.Number.Text
import Klang.Operator
import Klang.Session
import Klang.Source.Excerpt
import Klang.Source.Lines
import Klang.Source.Position
import Klang.Source.Span
import Klang.Store
import Klang.Table
import Klang.Text.Blank
import Klang.Text.Casing
import Klang.Text.Digit
import Klang.Text.Escape
import Klang.Text.LowerCase
import Klang.Text.Printable
import Klang.Text.Quoted
import Klang.Text.Ranges
import Klang.Text.Utf8
import Klang.Token
import Klang.Token.Lexeme
import Klang.Token.Lexer
import Klang.Value
import Klang.Value.Ascription
import Klang.Value.Coercion
import Klang.Value.Datum
import Klang.Proofs.EvalSteps
import Klang.Proofs.Interruption.Evaluator
import Klang.Proofs.BindingInvariant
import Klang.Proofs.Grammar
import Klang.Proofs.ParserSoundness
import Klang.Proofs.ProgramSoundness
import Klang.Proofs.Respan
import Klang.Proofs.RoundTrip.Openings
import Klang.Proofs.RoundTrip.Phrases
import Klang.Proofs.RoundTrip.Precedence
import Klang.Proofs.RoundTrip.Expressions
import Klang.Proofs.RoundTrip.Trees
import Klang.Proofs.RoundTrip.Programs
import Klang.Proofs.Concatenation.Lexemes
import Klang.Proofs.Concatenation.Extension
import Klang.Proofs.Concatenation.Parsers
import Klang.Proofs.Concatenation.Statements
import Klang.Proofs.Concatenation.Sources
import Klang.Proofs.Erasure.Agreement
import Klang.Proofs.Erasure.Evaluator
import Klang.Proofs.Concatenation.Runs
import Klang.Proofs.Lockstep.Evaluator
import Klang.Proofs.Lockstep.Code
import Klang.Proofs.ParsedNodes
import Klang.Proofs.ScopeFrames
import Klang.Proofs.Defenses
import Klang.Proofs.ShortCircuit
import Klang.Proofs.Locations.Parsers
import Klang.Proofs.Locations.Reports
import Klang.Proofs.Locations.Tokens
import Klang.Proofs.Locations.Runs
import Klang.Proofs.Views.Evaluator
import Klang.Proofs.HeapLocality
import Klang.Proofs.UnusedBindings
import Klang.Proofs.Lexing.Classes
import Klang.Proofs.Lexing.Layout
import Klang.Proofs.Lexing.Separators
import Klang.Proofs.Lexing.Tiling
import Klang.Proofs.ContainerShapes
import Klang.Proofs.ReturnSignals
import Klang.Proofs.ReturnPolicies
import Klang.Proofs.Locations.Positions
import Klang.Proofs.Locations.Sessions
import Klang.Proofs.Knots
import Klang.Proofs.ConsoleEnds
import Klang.Proofs.ScopeChains
import Klang.Proofs.IndexLaws
import Klang.Proofs.Brackets
import Klang.Proofs.Phrases.Variants
import Klang.Proofs.Lexing.Strings
import Klang.Proofs.Lexing.Faults
import Klang.Proofs.Phrases.Boundaries
import Klang.Proofs.ReturnPaths
import Klang.Proofs.CreationOrder
import Klang.Proofs.MapBuilding
import Klang.Proofs.Doubles.Packing
import Klang.Proofs.Doubles.Sums
import Klang.Proofs.Ranges
import Klang.Proofs.Interrupts
import Klang.Proofs.Termination
import Klang.Proofs.ParserTotality
import Klang.Proofs.Locations.Carets
import Klang.Proofs.Doubles.Decimals
import Klang.Proofs.Doubles.DecimalTexts
import Klang.Proofs.NumberKeys
import Klang.Proofs.Locations.Offsets
