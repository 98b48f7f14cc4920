import H8.AddressMap
import H8.Assembly.Directive
import H8.Assembly.Render
import H8.Assembly.Style
import H8.Assembly.Term
import H8.CommandLine.Arguments
import H8.CommandLine.Files
import H8.CommandLine.Run
import H8.Database
import H8.Database.CrossReferences
import H8.Database.Heads
import H8.Database.Symbols
import H8.Decode
import H8.Effects
import H8.Encoding.Index
import H8.Encoding.Opcode
import H8.Encoding.Pattern
import H8.Encoding.Table
import H8.Frame.Basic
import H8.Frame.Prologue
import H8.Heuristics
import H8.Input
import H8.Instruction
import H8.Json.Reader
import H8.Json.Shape
import H8.Json.Value
import H8.Listing
import H8.Main
import H8.Memory
import H8.Memory.ByteOrder
import H8.Mnemonic
import H8.Mode
import H8.Operand
import H8.Ports
import H8.Processor
import H8.Project
import H8.Project.Program
import H8.Reference
import H8.Reference.Saved
import H8.Register
import H8.Scan
import H8.Stack
import H8.Stack.Walk
import H8.Switch
import H8.Text.Blank
import H8.Text.Escape
import H8.Text.Numeral
import H8.Text.Printable
import H8.Text.Utf8
import H8.View
import H8.Width
import H8.Proofs.AddressMap
import H8.Proofs.Assembly.Data
import H8.Proofs.Assembly.Line
import H8.Proofs.Assembly.Numbers
import H8.Proofs.Assembly.Operands
import H8.Proofs.Assembly.Substitution
import H8.Proofs.Assembly.Tokens
import H8.Proofs.Assembly.Unambiguous
import H8.Proofs.CrossReferences
import H8.Proofs.Database
import H8.Proofs.Decode.Build
import H8.Proofs.Decode.Extension
import H8.Proofs.Decode.Identity
import H8.Proofs.Decode.Operands
import H8.Proofs.Decode.Placement
import H8.Proofs.Decode.PrefixCode
import H8.Proofs.Decode.Reserved
import H8.Proofs.Decode.Search
import H8.Proofs.Decode.WellFormed
import H8.Proofs.Effects
import H8.Proofs.Encoding.Agreement
import H8.Proofs.Encoding.Bijection
import H8.Proofs.Encoding.Fields
import H8.Proofs.Encoding.Grammar
import H8.Proofs.Encoding.Ranking
import H8.Proofs.Encoding.Separation
import H8.Proofs.Frame.Extent
import H8.Proofs.Frame.Pointer
import H8.Proofs.Frame.Score
import H8.Proofs.Frame.Targets
import H8.Proofs.Frame.Tiling
import H8.Proofs.Frame.Tracking
import H8.Proofs.Heads
import H8.Proofs.Heuristics
import H8.Proofs.Json.Format
import H8.Proofs.Json.Reader
import H8.Proofs.Json.RoundTrip
import H8.Proofs.Json.Shape
import H8.Proofs.Json.Skip
import H8.Proofs.Json.Writer
import H8.Proofs.Listing.Coverage
import H8.Proofs.Listing.Growth
import H8.Proofs.Listing.Labels
import H8.Proofs.Memory
import H8.Proofs.Memory.Numbers
import H8.Proofs.Ports
import H8.Proofs.Ports.Lines
import H8.Proofs.Ports.Sections
import H8.Proofs.Processor
import H8.Proofs.Project
import H8.Proofs.Scan.Closure
import H8.Proofs.Scan.Consistency
import H8.Proofs.Scan.Frames
import H8.Proofs.Scan.Hindsight
import H8.Proofs.Scan.Repetition
import H8.Proofs.Scan.Steps
import H8.Proofs.Stack.Composition
import H8.Proofs.Stack.Movement
import H8.Proofs.Stack.Walk
import H8.Proofs.Switch
import H8.Proofs.Switch.Idiom
import H8.Proofs.Switch.Registers
import H8.Proofs.Symbols
import H8.Proofs.Symbols.Bijection
import H8.Proofs.Symbols.Renaming
import H8.Proofs.Termination
import H8.Proofs.Text.Blank
import H8.Proofs.Text.Numeral
import H8.Proofs.Text.Utf8
