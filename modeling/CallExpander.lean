import CallExpander.Text.Blank
import CallExpander.Text.Letter
import CallExpander.Text.Location
import CallExpander.Text.Quoted
import CallExpander.Text.Width
import CallExpander.Number.Binary64
import CallExpander.Number.Shortest
import CallExpander.Number.Render
import CallExpander.Json.Value
import CallExpander.Json.Writer
import CallExpander.Json.Reader
import CallExpander.Tree.Basic
import CallExpander.Tree.Literal
import CallExpander.Code.Dialect
import CallExpander.Code.Point
import CallExpander.Code.Fault
import CallExpander.Code.Comment
import CallExpander.Code.Token
import CallExpander.Code.Gap
import CallExpander.Code.Escape
import CallExpander.Code.Numeral
import CallExpander.Code.Entity
import CallExpander.Code.Lexer
import CallExpander.Code.Parser.Basic
import CallExpander.Code.Parser.Names
import CallExpander.Code.Parser.Targets
import CallExpander.Code.Parser.Patterns
import CallExpander.Code.Parser.Templates
import CallExpander.Code.Parser.Types
import CallExpander.Code.Parser.Functions
import CallExpander.Code.Parser.Subscripts
import CallExpander.Code.Parser.Classes
import CallExpander.Code.Parser.Objects
import CallExpander.Code.Parser.Markup
import CallExpander.Code.Parser.Operators
import CallExpander.Code.Parser.Arrows
import CallExpander.Code.Parser.Operands
import CallExpander.Code.Parser.Expressions
import CallExpander.Code.Parser.Variables
import CallExpander.Code.Parser.Declarations
import CallExpander.Code.Parser.Loops
import CallExpander.Code.Parser.Statements
import CallExpander.Code.Parser.Modules
import CallExpander.Code.Parser
import CallExpander.Code.Literal
import CallExpander.Code.Layout
import CallExpander.Code.Printer.Part
import CallExpander.Code.Printer.Types
import CallExpander.Code.Printer.Expressions
import CallExpander.Code.Printer.Statements
import CallExpander.Code.Printer
import CallExpander.Failure
import CallExpander.Code.Source
import CallExpander.Tree.Calls
import CallExpander.Tree.Names
import CallExpander.Tree.Scope
import CallExpander.Tree.Sweep
import CallExpander.Import.Spec
import CallExpander.Import.Binding
import CallExpander.Import.Resolution
import CallExpander.Table
import CallExpander.Memory
import CallExpander.Body
import CallExpander.Macro.Handler
import CallExpander.Macro.Definition
import CallExpander.Registry
import CallExpander.Declarations
import CallExpander.Files
import CallExpander.Settings.Options
import CallExpander.Expansion.Run
import CallExpander.Expansion.Walk
import CallExpander.Expansion.Transform
import CallExpander.Number.Reading
import CallExpander.Script.Basic
import CallExpander.Script.Eval
import CallExpander.Script.Run
import CallExpander.Yaml.Fault
import CallExpander.Yaml.Token
import CallExpander.Yaml.Written
import CallExpander.Yaml.Property
import CallExpander.Yaml.Scan
import CallExpander.Yaml.Scalar
import CallExpander.Yaml.Node
import CallExpander.Yaml.Record
import CallExpander.Settings.Config
import CallExpander.Proofs.Expansion.Discipline
import CallExpander.Proofs.Tree.Skeleton
import CallExpander.Proofs.Tree.Marking
import CallExpander.Proofs.Body
import CallExpander.Proofs.Body.Bracket
import CallExpander.Proofs.Body.Imports
import CallExpander.Proofs.Body.Repetition
import CallExpander.Proofs.Expansion.Growth
import CallExpander.Proofs.Expansion.Passes
import CallExpander.Proofs.Expansion.Quiet
import CallExpander.Proofs.Import
import CallExpander.Proofs.Import.Forms
import CallExpander.Proofs.Tree.Places
import CallExpander.Proofs.Expansion.FixedPoint
import CallExpander.Proofs.Expansion.Order
import CallExpander.Proofs.Expansion.Shadowing
import CallExpander.Proofs.Expansion.Budget
import CallExpander.Proofs.Expansion.Settling
import CallExpander.Proofs.Expansion.Termination
import CallExpander.Proofs.Expansion.Moments
import CallExpander.Proofs.Expansion.Pending
import CallExpander.Proofs.Expansion.Batch
import CallExpander.Proofs.Expansion.Retirement
import CallExpander.Proofs.Expansion.Detection
import CallExpander.Proofs.Expansion.Preorder
import CallExpander.Proofs.Expansion.Invariant
import CallExpander.Proofs.Expansion.Rounds
import CallExpander.Proofs.Expansion.Limit
import CallExpander.Proofs.Expansion.Leading
import CallExpander.Proofs.Expansion.Failing
import CallExpander.Proofs.Expansion.Replaced
import CallExpander.Proofs.Expansion.Counting
import CallExpander.Proofs.Expansion.Clean
import CallExpander.Proofs.Expansion.Truthful
import CallExpander.Proofs.Expansion.Untouched
import CallExpander.Proofs.Expansion.Local
import CallExpander.Proofs.Expansion.Concatenation
import CallExpander.Proofs.Expansion.KeepImports
import CallExpander.Proofs.Expansion.OnePass
import CallExpander.Proofs.Registry.Registration
import CallExpander.Proofs.Registry.WellFormed
import CallExpander.Proofs.Registry.Permutation
import CallExpander.Proofs.Expansion.Dependency
import CallExpander.Proofs.Expansion.AddedModules
import CallExpander.Proofs.Number.Binary64
import CallExpander.Proofs.Tree.Literal
import CallExpander.Proofs.Tree.Parentheses
import CallExpander.Proofs.Import.Satisfaction
import CallExpander.Proofs.Import.Wire
import CallExpander.Proofs.Text.Lines
import CallExpander.Proofs.Code.Point
import CallExpander.Proofs.Code.Comment
import CallExpander.Proofs.Macro.DocComment
import CallExpander.Proofs.Declarations.Block
import CallExpander.Proofs.Declarations.Comments
import CallExpander.Proofs.Declarations.ModuleName
