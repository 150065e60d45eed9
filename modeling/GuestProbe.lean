import GuestProbe.CommandLine.Arguments
import GuestProbe.CommandLine.Options
import GuestProbe.CommandLine.Session
import GuestProbe.CommandLine.Transcript
import GuestProbe.Expression.DominantOperator
import GuestProbe.Expression.Environment
import GuestProbe.Expression.Error
import GuestProbe.Expression.Evaluation
import GuestProbe.Expression.Operator
import GuestProbe.Expression.Parentheses
import GuestProbe.Expression.Report
import GuestProbe.Expression.Scan
import GuestProbe.Log
import GuestProbe.Machine
import GuestProbe.Main
import GuestProbe.Memory.Basic
import GuestProbe.Memory.ByteStore
import GuestProbe.Memory.Error
import GuestProbe.Memory.Segment
import GuestProbe.Processor.Flags
import GuestProbe.Processor.Register
import GuestProbe.Processor.RegisterFile
import GuestProbe.Processor.RelativeJump
import GuestProbe.Proofs.Expression.Division
import GuestProbe.Proofs.Expression.Grammar
import GuestProbe.Proofs.Expression.Meaning
import GuestProbe.Proofs.Expression.Nesting
import GuestProbe.Proofs.Expression.Reduction
import GuestProbe.Proofs.Expression.Splitting
import GuestProbe.Symbols.Listing
import GuestProbe.Symbols.Table
import GuestProbe.Text.Numeral
import GuestProbe.Text.Pattern
import GuestProbe.Text.Utf8
import GuestProbe.Text.Whitespace
import GuestProbe.Text.WordCharacter
import GuestProbe.Token.Basic
import GuestProbe.Token.Rule
import GuestProbe.Token.Unary
import GuestProbe.Traced
import GuestProbe.Width
import GuestProbe.Proofs.Expression.Stratification
import GuestProbe.Proofs.Text.Matching
import GuestProbe.Proofs.Token.Spelling
import GuestProbe.Proofs.Expression.Scanning
import GuestProbe.Proofs.Expression.Writing
import GuestProbe.Proofs.Expression.Operand
import GuestProbe.Proofs.Symbols.Listing
import GuestProbe.Proofs.Symbols.Lookup
import GuestProbe.Proofs.Expression.Agreement
import GuestProbe.Proofs.Expression.Arithmetic
import GuestProbe.Proofs.Expression.Leniency
import GuestProbe.Proofs.Expression.Opacity
import GuestProbe.Proofs.Expression.Failure
import GuestProbe.Proofs.Memory.Mapping
import GuestProbe.Proofs.Memory.Reading
import GuestProbe.Proofs.Memory.Contents
import GuestProbe.Proofs.Token.Lexeme
import GuestProbe.Proofs.Token.Lookahead
import GuestProbe.Proofs.Expression.Tokens
import GuestProbe.Proofs.Expression.ErrorPosition
import GuestProbe.Proofs.Memory.Mirroring
import GuestProbe.Proofs.Guarded.Operations
import GuestProbe.Proofs.Guarded.Scanning
import GuestProbe.Proofs.Guarded.Evaluation
import GuestProbe.Proofs.Text.Lines
import GuestProbe.Proofs.Symbols.Refusal
import GuestProbe.Proofs.Expression.Pieces
import GuestProbe.Proofs.Expression.Relocation
import GuestProbe.Proofs.Expression.Spacing
import GuestProbe.Proofs.CommandLine.Transcript
import GuestProbe.Proofs.CommandLine.Steps
import GuestProbe.Proofs.CommandLine.Session
import GuestProbe.Proofs.Expression.Dependence
import GuestProbe.Proofs.Expression.Consumption
import GuestProbe.Proofs.Processor.Accessors
import GuestProbe.Proofs.Processor.Jumps
import GuestProbe.Proofs.Memory.Reachability
import GuestProbe.Proofs.Memory.Words
import GuestProbe.Proofs.Memory.Images
import GuestProbe.Proofs.Processor.Targets
import GuestProbe.Proofs.CommandLine.Values
import GuestProbe.Proofs.Expression.Pairing
import GuestProbe.Proofs.Expression.Resolution
import GuestProbe.Proofs.Expression.Display
import GuestProbe.Proofs.CommandLine.Arguments
import GuestProbe.Proofs.CommandLine.Setup
import GuestProbe.Proofs.Expression.Calls
import GuestProbe.Proofs.Expression.Exposure
import GuestProbe.Proofs.Token.MaximalMunch
import GuestProbe.Proofs.Token.Truncation
