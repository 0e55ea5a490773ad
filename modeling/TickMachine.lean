import TickMachine.Arch.Op
import TickMachine.Arch.Register
import TickMachine.Arch.Word
import TickMachine.Assembly.Assemble
import TickMachine.Assembly.Draft
import TickMachine.Assembly.Error
import TickMachine.Assembly.Item
import TickMachine.Assembly.LabelTable
import TickMachine.CommandLine.Arguments
import TickMachine.CommandLine.Directory
import TickMachine.CommandLine.Files
import TickMachine.CommandLine.Path
import TickMachine.CommandLine.Session
import TickMachine.Json.NumberReader
import TickMachine.Json.Printer
import TickMachine.Json.Reader
import TickMachine.Json.StringReader
import TickMachine.Json.Value
import TickMachine.Log
import TickMachine.Machine.DataPath
import TickMachine.Machine.Event
import TickMachine.Machine.Fault
import TickMachine.Machine.Instruction
import TickMachine.Machine.Memory
import TickMachine.Machine.Run
import TickMachine.Machine.StateLine
import TickMachine.Machine.Step
import TickMachine.Main
import TickMachine.OutputFormat
import TickMachine.Pipeline
import TickMachine.Program.Descriptor
import TickMachine.Program.Disassembly
import TickMachine.Program.Executable
import TickMachine.Program.Listing
import TickMachine.Source.Charset
import TickMachine.Source.Lexer
import TickMachine.Source.Literal
import TickMachine.Source.Token
import TickMachine.Text.Decimal
import TickMachine.Text.Fold
import TickMachine.Text.Invisible.Blank
import TickMachine.Text.Invisible.Extending
import TickMachine.Text.Invisible.Unassigned
import TickMachine.Text.Padding
import TickMachine.Text.Shown
import TickMachine.Proofs.Arch.Catalog
import TickMachine.Proofs.Machine.Execution
import TickMachine.Proofs.Machine.History
import TickMachine.Proofs.Machine.InstructionTable
import TickMachine.Proofs.Machine.Persistence
import TickMachine.Proofs.Json.Numbers
import TickMachine.Proofs.Json.Lists
import TickMachine.Proofs.Json.Strings
import TickMachine.Proofs.Json.Layout
import TickMachine.Proofs.Json.Values
import TickMachine.Proofs.Program.DescriptorRoundTrip
import TickMachine.Proofs.Program.PersistedExecution
import TickMachine.Proofs.Machine.TableFollowed
import TickMachine.Proofs.Assembly.Items
import TickMachine.Proofs.Assembly.FirstPass
import TickMachine.Proofs.Assembly.Layout
import TickMachine.Proofs.Assembly.SecondPass
import TickMachine.Proofs.Source.Transitions
import TickMachine.Proofs.Source.Rendering
import TickMachine.Proofs.Assembly.WrittenWords
import TickMachine.Proofs.Assembly.Reassembly
import TickMachine.Proofs.Machine.Failure
import TickMachine.Proofs.Machine.Runs
import TickMachine.Proofs.Machine.RunsBySteps
import TickMachine.Proofs.Machine.StepLimit
import TickMachine.Proofs.Json.Accepted
import TickMachine.Proofs.Program.AcceptedDescriptors
import TickMachine.Proofs.Machine.StoredData
import TickMachine.Proofs.Program.AssembledExecution
import TickMachine.Proofs.Assembly.Grammar
import TickMachine.Proofs.Assembly.FirstPassErrors
import TickMachine.Proofs.Assembly.Verdicts
import TickMachine.Proofs.Source.Coverage
import TickMachine.Proofs.Source.Positions
import TickMachine.Proofs.Source.Printing
import TickMachine.Proofs.Source.Decompositions
import TickMachine.Proofs.Source.Retouching
import TickMachine.Proofs.Source.Stream
import TickMachine.Proofs.Assembly.UnexpectedTokens
import TickMachine.Proofs.Assembly.Respelling
import TickMachine.Proofs.Assembly.RespelledSources
import TickMachine.Proofs.Machine.Surroundings
import TickMachine.Proofs.Machine.UnreadInput
import TickMachine.Proofs.Machine.MemorySize
import TickMachine.Proofs.Source.Moves
import TickMachine.Proofs.Source.Course
import TickMachine.Proofs.Source.FirstFault
import TickMachine.Proofs.Assembly.Joining
import TickMachine.Proofs.Assembly.Appending
import TickMachine.Proofs.Machine.Ticks
import TickMachine.Proofs.Machine.Queues
import TickMachine.Proofs.Machine.Indexed
import TickMachine.Proofs.Machine.IndicesInRange
import TickMachine.Proofs.CommandLine.Arguments
import TickMachine.Proofs.CommandLine.Diagnostics
import TickMachine.Proofs.CommandLine.Directory
import TickMachine.Proofs.CommandLine.TwoStages
import TickMachine.Proofs.Machine.ForwardPrograms
import TickMachine.Proofs.CommandLine.Thresholds
import TickMachine.Proofs.CommandLine.FileEffects
import TickMachine.Proofs.Machine.Views
import TickMachine.Proofs.Programs.PrinterSource
import TickMachine.Proofs.Programs.Printer
import TickMachine.Proofs.Program.MalformedCommands
import TickMachine.Proofs.Json.Truncation
import TickMachine.Proofs.Program.TruncatedDescriptors
import TickMachine.Proofs.Json.Variants
import TickMachine.Proofs.Program.Documents
import TickMachine.Proofs.Program.DescriptorVariants
import TickMachine.Proofs.Programs.Echo
import TickMachine.Proofs.Text.Separated
import TickMachine.Proofs.Text.Lines
import TickMachine.Proofs.Text.ByteOrder
import TickMachine.Proofs.Program.Annotations
import TickMachine.Proofs.Program.Listings
import TickMachine.Proofs.OutputFormats
import TickMachine.Proofs.Assembly.SymbolTable
import TickMachine.Proofs.Text.Words
import TickMachine.Proofs.Machine.StateLines
import TickMachine.Proofs.Assembly.NumberLiterals
import TickMachine.Proofs.Source.Termination
